import LambdaTutor.Proofs.Closure.Equality
import LambdaTutor.Proofs.Closure.Rendering
import LambdaTutor.Proofs.Evaluation.CallByValue

/-!
# Printed text stands for the value

The printed text of a closure is source text. Evaluated with no environment it gives a closure that
captures nothing and holds, inlined in its body, what the first one had captured. The two are not
equal in general, but they are read back as the same term, and in a closed scope the values of runs
depend on nothing else (`Term.exists_eval_of_resolve_eq`): no run of a closed program can tell
whether its builtins were printed and read again.
-/

namespace LambdaTutor

/-- A closure of an abstraction that is written in a source text, and so are the abstractions of all
closures bound there. -/
inductive Closure.HereditarilyParsed : Closure → Prop where
  | intro {closure : Closure}
      (written : ∃ text term, parse text = .ok term ∧ closure.lambda ∈ term.lambdas)
      (inner : ∀ name value, closure.env.get? name = some value → HereditarilyParsed value) :
      HereditarilyParsed closure

/-- Every bound closure is hereditarily parsed. -/
def Environment.HereditarilyParsed (env : Environment) : Prop :=
  ∀ name value, env.get? name = some value → value.HereditarilyParsed

/-- The printed text of a closure, evaluated with no environment, has the second closure as its
value. -/
def Closure.Reprints (closure printed : Closure) : Prop :=
  Settles closure.display .empty (.value printed)

/-- Two environments bind the same names, and each name on the right to the closure on the left or
to the value of that closure's printed text. -/
def Environment.Reprinted (env printed : Environment) : Prop :=
  ∀ name, Option.Rel (fun closure value => value = closure ∨ closure.Reprints value)
    (env.get? name) (printed.get? name)

namespace Closure

variable {closure printed : Closure}

/-- The abstractions that a hereditarily parsed closure reaches can be written. -/
theorem HereditarilyParsed.writable (parsed : closure.HereditarilyParsed) {target : Closure}
    (reaches : closure.Reaches target) : target.lambda.Writable := by
  induction reaches with
  | refl closure =>
    obtain ⟨⟨text, term, parsed, member⟩, -⟩ := parsed
    intro name written
    exact isName_of_parse parsed (Term.mem_writtenNames_of_mem_lambdas member written)
  | step bound _ ih =>
    obtain ⟨-, inner⟩ := parsed
    exact ih (inner _ _ bound)

/-- The printed text of a hereditarily parsed closure is parsed to the term it is read back as. -/
theorem HereditarilyParsed.parse_display (parsed : closure.HereditarilyParsed) :
    parse closure.display = .ok (closure.readback []) :=
  Term.parse_print (Closure.writable_readback [] fun _ reaches => parsed.writable reaches)

/-- A closure is read back as an abstraction of its parameter. -/
theorem exists_readback_eq_lam (closure : Closure) :
    ∃ body, closure.readback [] = .lam closure.param body := by
  cases closure
  exact ⟨_, rfl⟩

/-- The printed text gives the closure of the term that was read back, with nothing captured. -/
theorem HereditarilyParsed.reprints_iff (parsed : closure.HereditarilyParsed) :
    closure.Reprints printed ↔ printed.env = .empty ∧ printed.lambda = closure.readback [] := by
  obtain ⟨body, read⟩ := closure.exists_readback_eq_lam
  have reprints : closure.Reprints (.mk closure.param body .empty) := by
    refine ⟨nofun, 1, ?_⟩
    rw [evaluate_of_parse parsed.parse_display, read]
    rfl
  constructor
  · intro other
    cases other.unique reprints
    exact ⟨rfl, read.symm⟩
  · rintro ⟨captured, same⟩
    obtain ⟨param, otherBody, env⟩ := printed
    obtain rfl : env = .empty := captured
    rw [read] at same
    cases same
    exact reprints

/-- The printed text of a hereditarily parsed closure has a value. -/
theorem HereditarilyParsed.exists_reprints (parsed : closure.HereditarilyParsed) :
    ∃ printed, closure.Reprints printed := by
  obtain ⟨body, read⟩ := closure.exists_readback_eq_lam
  exact ⟨.mk closure.param body .empty, parsed.reprints_iff.mpr ⟨rfl, read.symm⟩⟩

/-- Printing and reading again keeps the term that a closure is read back as. -/
theorem Reprints.readback_eq (reprints : closure.Reprints printed)
    (parsed : closure.HereditarilyParsed) : printed.readback [] = closure.readback [] := by
  obtain ⟨captured, same⟩ := parsed.reprints_iff.mp reprints
  rw [Closure.readback_nil, captured, same, Term.resolve_empty]

/-- Printing and reading again keeps a closure hereditarily closed. -/
theorem Reprints.hereditarilyClosed (reprints : closure.Reprints printed)
    (parsed : closure.HereditarilyParsed) (closed : closure.HereditarilyClosed) :
    printed.HereditarilyClosed := by
  obtain ⟨captured, same⟩ := parsed.reprints_iff.mp reprints
  refine .intro ?_ ?_
  · rw [same, closed.freeNames_readback]
    exact nofun
  · rw [captured]
    exact nofun

end Closure

namespace Environment.Reprinted

variable {env printed : Environment}

/-- Each name stands for the same term on both sides. -/
theorem readback?_eq (reprinted : env.Reprinted printed) (parsed : env.HereditarilyParsed) :
    printed.readback? [] = env.readback? [] := by
  funext name
  rw [Environment.readback?_eq, Environment.readback?_eq]
  rcases Environment.rel_get?_iff.mp (reprinted name) with
    ⟨unbound, otherUnbound⟩ | ⟨closure, value, lookup, otherLookup, rfl | reprints⟩
  · rw [unbound, otherUnbound]
  · rw [lookup, otherLookup]
  · rw [lookup, otherLookup, Option.map_some, Option.map_some,
      reprints.readback_eq (parsed name closure lookup)]

/-- A term that has a closed scope on the left has one on the right. -/
theorem closedScope (reprinted : env.Reprinted printed) (parsed : env.HereditarilyParsed)
    {term : Term} (scope : RunInvariant.closedScope.OnTerm term env) :
    RunInvariant.closedScope.OnTerm term printed := by
  obtain ⟨closed, bound⟩ := scope
  constructor
  · intro name value found
    obtain ⟨closure, lookup, rfl | reprints⟩ :=
      Environment.exists_get?_of_rel_right (reprinted name) found
    · exact closed name _ lookup
    · exact reprints.hereditarilyClosed (parsed name closure lookup) (closed name closure lookup)
  · intro name free
    obtain ⟨value, lookup⟩ := bound name free
    obtain ⟨found, otherLookup, -⟩ := Environment.exists_get?_of_rel (reprinted name) lookup
    exact ⟨found, otherLookup⟩

end Environment.Reprinted

/-- In closed scopes, terms that resolve alike have values that are read back alike. -/
theorem Term.exists_eval_of_resolve_eq {term otherTerm : Term} {env other : Environment}
    {depth : Nat} {closure : Closure} (scope : RunInvariant.closedScope.OnTerm term env)
    (otherScope : RunInvariant.closedScope.OnTerm otherTerm other)
    (same : otherTerm.resolve other [] = term.resolve env [])
    (run : term.eval depth env = .value closure) :
    ∃ otherDepth found, otherTerm.eval otherDepth other = .value found ∧
      found.readback [] = closure.readback [] :=
  Term.exists_eval_of_evaluates (Term.evaluates_of_eval scope run) otherScope same

namespace Environment

theorem HereditarilyParsed.empty : empty.HereditarilyParsed := by
  intro name value found
  cases found

/-- Binding a name to a hereditarily parsed closure keeps an environment hereditarily parsed. -/
theorem HereditarilyParsed.extend {env : Environment} (parsed : env.HereditarilyParsed)
    (bound : String) {value : Closure} (valueParsed : value.HereditarilyParsed) :
    (env.extend bound value).HereditarilyParsed := by
  intro name found lookup
  rcases get?_extend_eq_some_iff.mp lookup with ⟨-, rfl⟩ | ⟨-, lookup⟩
  · exact valueParsed
  · exact parsed name found lookup

end Environment

/-- A closure that captured another one, and mentions it. -/
def quotedIdentity : Closure :=
  .mk "y" (.var "id") (.extend .empty "id" (.mk "x" (.var "x") .empty))

theorem quotedIdentity_closed : quotedIdentity.HereditarilyClosed := by
  have identity : (Closure.mk "x" (.var "x") .empty).HereditarilyClosed :=
    .intro (by simp [Closure.lambda]) nofun
  refine .intro ?_ (Environment.HereditarilyClosed.empty.extend "id" identity)
  intro name free
  obtain rfl : name = "id" := List.mem_singleton.mp free
  exact ⟨_, rfl⟩

theorem quotedIdentity_parsed : quotedIdentity.HereditarilyParsed := by
  have identity : (Closure.mk "x" (.var "x") .empty).HereditarilyParsed :=
    .intro ⟨"(\\x.x)", _, rfl, List.mem_cons_self⟩ nofun
  exact .intro ⟨"(\\y.id)", _, rfl, List.mem_cons_self⟩
    (Environment.HereditarilyParsed.empty.extend "id" identity)

theorem quotedIdentity_reprints :
    quotedIdentity.Reprints (.mk "y" (.lam "x" (.var "x")) .empty) :=
  quotedIdentity_parsed.reprints_iff.mpr ⟨rfl, rfl⟩

/-- Printed text stands for the value. Take a closed scope whose code was all parsed from source
text. Every closure in it can be replaced by the value of its printed text, and however many are, a
term with its free names in the scope fails in neither environment, has a value in both or in none,
and the two values are printed alike. The replaced closures themselves are not equal in general. -/
theorem reprinted_closures_behave_alike :
    (∀ env : Environment, env.HereditarilyClosed → env.HereditarilyParsed →
      (∃ printed : Environment, ∀ name,
        Option.Rel Closure.Reprints (env.get? name) (printed.get? name)) ∧
      ∀ printed : Environment, env.Reprinted printed → ∀ term : Term,
        (∀ name ∈ term.freeNames, ∃ value, env.get? name = some value) →
        (∀ depth cause, term.eval depth env ≠ .error cause ∧
          term.eval depth printed ≠ .error cause) ∧
        ((∃ depth closure, term.eval depth env = .value closure) ↔
          ∃ depth closure, term.eval depth printed = .value closure) ∧
        ∀ depth closure otherDepth found, term.eval depth env = .value closure →
          term.eval otherDepth printed = .value found → closure.display = found.display) ∧
    ∃ closure printed : Closure, closure.HereditarilyClosed ∧ closure.HereditarilyParsed ∧
      closure.Reprints printed ∧ (closure == printed) = false := by
  constructor
  · intro env closed parsed
    constructor
    · obtain ⟨printed, agree⟩ := Environment.exists_rel_get? Closure.Reprints env
      exact ⟨printed, fun name =>
        agree name fun value found => (parsed name value found).exists_reprints⟩
    · intro printed reprinted term bound
      have scope : RunInvariant.closedScope.OnTerm term env := ⟨closed, bound⟩
      have otherScope := reprinted.closedScope parsed scope
      -- The two runs have no step in common; what they share is the closed term they stand for.
      have same : term.resolve printed [] = term.resolve env [] := by
        rw [Term.resolve, Term.resolve, reprinted.readback?_eq parsed]
      refine ⟨?_, ?_, ?_⟩
      · rintro depth ⟨name⟩
        exact ⟨RunInvariant.closedScope_eval_ne_error scope,
          RunInvariant.closedScope_eval_ne_error otherScope⟩
      · constructor
        · rintro ⟨depth, closure, run⟩
          obtain ⟨otherDepth, found, otherRun, -⟩ :=
            Term.exists_eval_of_resolve_eq scope otherScope same run
          exact ⟨otherDepth, found, otherRun⟩
        · rintro ⟨depth, closure, run⟩
          obtain ⟨otherDepth, found, otherRun, -⟩ :=
            Term.exists_eval_of_resolve_eq otherScope scope same.symm run
          exact ⟨otherDepth, found, otherRun⟩
      · intro depth closure otherDepth found run otherRun
        obtain ⟨againDepth, again, againRun, read⟩ :=
          Term.exists_eval_of_resolve_eq scope otherScope same run
        obtain rfl := Term.eval_value_unique againRun otherRun
        rw [Closure.display, Closure.display, Closure.render, Closure.render, read]
  · exact ⟨quotedIdentity, .mk "y" (.lam "x" (.var "x")) .empty, quotedIdentity_closed,
      quotedIdentity_parsed, quotedIdentity_reprints, rfl⟩

/-- A builtin that is applied to itself, and what it was printed as. The two runs return closures
with different environments. -/
theorem reprinted_closures_behave_alike_quoted :
    let env : Environment := .extend .empty "quoted" quotedIdentity
    let printed : Environment := .extend .empty "quoted" (.mk "y" (.lam "x" (.var "x")) .empty)
    let term : Term := .app (.var "quoted") (.var "quoted")
    env.HereditarilyClosed ∧ env.HereditarilyParsed ∧ env.Reprinted printed ∧
    (∃ other : Environment, ∀ name,
      Option.Rel Closure.Reprints (env.get? name) (other.get? name)) ∧
    (∀ depth cause, term.eval depth env ≠ .error cause ∧ term.eval depth printed ≠ .error cause) ∧
    ((∃ depth closure, term.eval depth env = .value closure) ↔
      ∃ depth closure, term.eval depth printed = .value closure) ∧
    ∀ depth closure otherDepth found, term.eval depth env = .value closure →
      term.eval otherDepth printed = .value found → closure.display = found.display := by
  intro env printed term
  have closed : env.HereditarilyClosed :=
    Environment.HereditarilyClosed.empty.extend "quoted" quotedIdentity_closed
  have parsed : env.HereditarilyParsed :=
    Environment.HereditarilyParsed.empty.extend "quoted" quotedIdentity_parsed
  have reprinted : env.Reprinted printed := by
    intro name
    by_cases same : name = "quoted"
    · simpa [env, printed, same] using .inr quotedIdentity_reprints
    · simp [env, printed, same]
  have bound : ∀ name ∈ term.freeNames, ∃ value, env.get? name = some value := by
    intro name free
    obtain rfl : name = "quoted" := by simpa [term] using free
    exact ⟨quotedIdentity, rfl⟩
  obtain ⟨exist, alike⟩ := reprinted_closures_behave_alike.1 env closed parsed
  exact ⟨closed, parsed, reprinted, exist, alike printed reprinted term bound⟩

end LambdaTutor
