import LambdaTutor.Proofs.Closure.Readback
import LambdaTutor.Proofs.Evaluation.LexicalScope
import LambdaTutor.Proofs.Evaluation.Scope

/-!
# Names that are kept symbolic

Reading a closure back can leave names in place. They are left by name, wherever they stand and
whatever they are bound to there, so the reader who puts the builtins of a scope in their place does
not always get the full term: a captured environment may bind the name to something else, and a
parameter of the same name may stand around the place. Nothing else can go wrong
(`Closure.HereditarilyClosed.replace_readback_eq_iff`), and neither can happen when no symbolic name
is the parameter of an abstraction.
-/

namespace LambdaTutor

namespace Term

/-- A replacement that leaves the spared names alone. -/
def sparing (spared : List String) (replacement : String → Option Term) : String → Option Term :=
  fun name => if name ∈ spared then none else replacement name

section Sparing

variable {spared : List String} {name : String} (replacement : String → Option Term)

theorem sparing_of_mem (member : name ∈ spared) : sparing spared replacement name = none :=
  if_pos member

theorem sparing_of_not_mem (other : name ∉ spared) :
    sparing spared replacement name = replacement name :=
  if_neg other

@[simp] theorem sparing_nil : sparing [] replacement = replacement := by
  funext name
  simp [sparing]

theorem sparing_sparing (spared others : List String) :
    sparing spared (sparing others replacement) = sparing (spared ++ others) replacement := by
  funext name
  by_cases member : name ∈ spared <;> simp [sparing, member]

theorem sparing_cons (param : String) (around : List String) :
    sparing (param :: around) replacement = sparing around (sparing [param] replacement) := by
  funext name
  by_cases member : name ∈ around <;> simp [sparing, member]

end Sparing

/-- An abstraction is replaced in its body, with its parameter spared. -/
theorem replace_lam (param : String) (body : Term) (replacement : String → Option Term) :
    (lam param body).replace replacement =
      lam param (body.replace (sparing [param] replacement)) := by
  have hidden : sparing [param] replacement =
      fun name => if name = param then none else replacement name := by
    funext name
    simp [sparing]
  rw [hidden, replace]

/-- Two replacements in a row come to a third one exactly when they do so at every free occurrence
of a name, where the second one spares the parameters around. -/
theorem replace_replace_eq_iff {term : Term} {first second both : String → Option Term} :
    (term.replace first).replace second = term.replace both ↔
      ∀ around name, term.Encloses around (var name) → name ∉ around →
        ((first name).getD (var name)).replace (sparing around second) =
          (both name).getD (var name) := by
  induction term generalizing first second both with
  | var other =>
    constructor
    · rintro same around name ⟨⟩ -
      rw [sparing_nil]
      exact same
    · intro agree
      simpa [replace] using agree [] other (.refl _) List.not_mem_nil
  | lam param body ih =>
    rw [replace_lam, replace_lam, replace_lam, lam.injEq, and_iff_right rfl, ih]
    constructor
    · intro agree around name encloses free
      cases encloses with
      | @lam _ _ _ around encloses =>
        obtain ⟨different, free⟩ := not_or.mp (mt List.mem_cons.mpr free)
        have unspared : name ∉ [param] := mt List.mem_singleton.mp different
        have agrees := agree around name encloses free
        rwa [sparing_of_not_mem _ unspared, sparing_of_not_mem _ unspared, ← sparing_cons] at agrees
    · intro agree around name encloses free
      by_cases same : name = param
      · -- The parameter itself is replaced on neither side.
        have spared : name ∈ [param] := List.mem_singleton.mpr same
        simp only [sparing_of_mem _ spared, Option.getD_none, replace, sparing_of_not_mem _ free]
      · have unspared : name ∉ [param] := mt List.mem_singleton.mp same
        rw [sparing_of_not_mem _ unspared, sparing_of_not_mem _ unspared, ← sparing_cons]
        exact agree (param :: around) name (.lam encloses) (by simp [same, free])
  | app fn arg fnIh argIh =>
    simp only [replace, app.injEq, fnIh, argIh]
    constructor
    · rintro ⟨onFn, onArg⟩ around name encloses free
      cases encloses with
      | fn encloses => exact onFn around name encloses free
      | arg encloses => exact onArg around name encloses free
    · intro agree
      exact ⟨fun around name encloses => agree around name (.fn encloses),
        fun around name encloses => agree around name (.arg encloses)⟩

end Term

/-- A closure is read back as its abstraction, with what its environment binds put in the place of
all names but the symbolic ones. -/
theorem Closure.readback_eq_replace (closure : Closure) (symbolic : List String) :
    closure.readback symbolic =
      closure.lambda.replace (Term.sparing symbolic (closure.env.readback? symbolic)) := by
  obtain ⟨param, body, env⟩ := closure
  rw [Closure.readback, Closure.lambda, Term.replace_lam]
  congr 2
  funext name
  by_cases same : name = param <;> simp [Term.sparing, same]

/-- Reading a closure back leaves a symbolic name in place, under the parameters of the abstractions
around the place, where the name is bound to the given value. The place is in the abstraction itself
or in that of a closure that is put into it. -/
inductive Closure.LeavesSymbolic (symbolic : List String) :
    Closure → List String → String → Closure → Prop where
  | here {closure value : Closure} {around : List String} {name : String}
      (encloses : closure.lambda.Encloses around (.var name)) (free : name ∉ around)
      (kept : name ∈ symbolic) (bound : closure.env.get? name = some value) :
      LeavesSymbolic symbolic closure around name value
  | inside {closure inner value : Closure} {outer around : List String} {binder name : String}
      (encloses : closure.lambda.Encloses outer (.var binder)) (free : binder ∉ outer)
      (replaced : binder ∉ symbolic) (bound : closure.env.get? binder = some inner)
      (leaves : LeavesSymbolic symbolic inner around name value) :
      LeavesSymbolic symbolic closure (outer ++ around) name value

namespace Closure

variable {closure : Closure} {symbolic : List String}

/-- No closure is read back as a variable, so a name comes to a closure's term only by being
replaced. -/
theorem getD_eq_readback_iff {found : Option Term} {name : String} :
    found.getD (.var name) = closure.readback symbolic ↔
      found = some (closure.readback symbolic) := by
  obtain ⟨param, body, env⟩ := closure
  cases found <;> simp [Closure.readback]

variable {caught around : List String} {replacement : String → Option Term} {env : Environment}
  {name : String} {value : Closure}

/-- At a symbolic name the replacement has to put in what the name is bound to. -/
theorem replace_occurrence_of_symbolic (lookup : env.get? name = some value)
    (kept : name ∈ symbolic) (free : name ∉ around) :
    ((Term.sparing symbolic (env.readback? symbolic) name).getD (.var name)).replace
        (Term.sparing around (Term.sparing caught replacement)) =
      (env.readback? [] name).getD (.var name) ↔
    name ∉ caught ∧ replacement name = some (value.readback []) := by
  rw [Term.sparing_of_mem _ kept, Environment.readback?_eq, lookup, Option.map_some, Option.getD_some,
    Option.getD_none, Term.replace, Term.sparing_of_not_mem _ free, getD_eq_readback_iff]
  by_cases spared : name ∈ caught
  · simp [Term.sparing_of_mem _ spared, spared]
  · simp [Term.sparing_of_not_mem _ spared, spared]

/-- At any other name the replacement has to complete the closure that is put in. -/
theorem replace_occurrence_of_not_symbolic (lookup : env.get? name = some value)
    (replaced : name ∉ symbolic) :
    ((Term.sparing symbolic (env.readback? symbolic) name).getD (.var name)).replace
        (Term.sparing around (Term.sparing caught replacement)) =
      (env.readback? [] name).getD (.var name) ↔
    (value.readback symbolic).replace (Term.sparing (around ++ caught) replacement) =
      value.readback [] := by
  rw [Term.sparing_of_not_mem _ replaced, Environment.readback?_eq, Environment.readback?_eq, lookup,
    Option.map_some, Option.map_some, Option.getD_some, Option.getD_some, Term.sparing_sparing]

/-- When a replacement of the symbolic names, sparing those that are caught, completes the term that
a closure is read back as: every name left in place must be uncaught, and must be replaced by the
term of what it was bound to. -/
theorem HereditarilyClosed.replace_readback_eq_iff (closed : closure.HereditarilyClosed) :
    (closure.readback symbolic).replace (Term.sparing caught replacement) = closure.readback [] ↔
      ∀ around name value, closure.LeavesSymbolic symbolic around name value →
        name ∉ around ∧ name ∉ caught ∧ replacement name = some (value.readback []) := by
  -- An inlined closure stands under more parameters than the closure it is put into, so the names
  -- that are caught vary along the induction.
  induction closed generalizing caught with
  | @intro closure bound _ ih =>
    rw [readback_eq_replace closure symbolic, readback_eq_replace closure [], Term.sparing_nil,
      Term.replace_replace_eq_iff]
    constructor
    · intro agree around name value leaves
      cases leaves with
      | here encloses free kept lookup =>
        have complete := agree around name encloses free
        exact ⟨free, (replace_occurrence_of_symbolic lookup kept free).mp complete⟩
      | @inside _ inner _ outer around binder _ encloses free replaced lookup leaves =>
        have complete := agree outer binder encloses free
        rw [replace_occurrence_of_not_symbolic lookup replaced, ih binder inner lookup] at complete
        obtain ⟨uncaught, apart, put⟩ := complete around name value leaves
        obtain ⟨apartOuter, apartCaught⟩ := not_or.mp (mt List.mem_append.mpr apart)
        exact ⟨by simp [uncaught, apartOuter], apartCaught, put⟩
    · intro complete around name encloses free
      obtain ⟨value, lookup⟩ := bound name (encloses.mem_freeNames free)
      by_cases kept : name ∈ symbolic
      · rw [replace_occurrence_of_symbolic lookup kept free]
        exact (complete around name value (.here encloses free kept lookup)).2
      · rw [replace_occurrence_of_not_symbolic lookup kept, ih name value lookup]
        intro inside other found leaves
        obtain ⟨uncaught, apartCaught, put⟩ :=
          complete _ other found (.inside encloses free kept lookup leaves)
        obtain ⟨apartOuter, apart⟩ := not_or.mp (mt List.mem_append.mpr uncaught)
        exact ⟨apart, by simp [apartOuter, apartCaught], put⟩

/-- Only symbolic names are left in place. -/
theorem LeavesSymbolic.kept (leaves : closure.LeavesSymbolic symbolic around name value) :
    name ∈ symbolic := by
  induction leaves with
  | here _ _ kept _ => exact kept
  | inside _ _ _ _ _ ih => exact ih

end Closure

/-- No symbolic name is a parameter in the term, and the environment binds no symbolic name but to
what the scope binds it to. -/
def LexicalProperty.fixes (scope : Environment) (symbolic : List String) : LexicalProperty where
  Holds term env :=
    (∀ param body, .lam param body ∈ term.lambdas → param ∉ symbolic) ∧
      ∀ name ∈ symbolic, ∀ value, env.get? name = some value → scope.get? name = some value
  fn := And.imp_left fun apart param body member =>
    apart param body (List.mem_append_left _ member)
  arg := And.imp_left fun apart param body member =>
    apart param body (List.mem_append_right _ member)
  body := by
    rintro param body env value ⟨apart, agree⟩
    refine ⟨fun inner found member => apart inner found (List.mem_cons_of_mem _ member), ?_⟩
    intro name kept found lookup
    rcases Environment.get?_extend_eq_some_iff.mp lookup with ⟨rfl, -⟩ | ⟨-, lookup⟩
    · exact absurd kept (apart name body List.mem_cons_self)
    · exact agree name kept found lookup

/-- Where the symbolic names are fixed, each one that is left in place is uncaught and bound as it
is in the scope. -/
theorem Closure.LeavesSymbolic.of_fixes {scope : Environment} {symbolic around : List String}
    {name : String} {closure value : Closure}
    (leaves : closure.LeavesSymbolic symbolic around name value)
    (fixes : (LexicalProperty.fixes scope symbolic).Everywhere closure) :
    name ∉ around ∧ scope.get? name = some value := by
  induction leaves with
  | @here closure _ _ _ _ free kept bound =>
    obtain ⟨-, agree⟩ := fixes closure (.refl closure)
    exact ⟨free, agree _ kept _ bound⟩
  | @inside closure _ _ _ _ _ name encloses _ _ bound leaves ih =>
    obtain ⟨apart, -⟩ := fixes closure (.refl closure)
    obtain ⟨uncaught, found⟩ := ih fun target reaches => fixes target (.step bound reaches)
    refine ⟨?_, found⟩
    intro caught
    rcases List.mem_append.mp caught with caught | caught
    · obtain ⟨body, member⟩ := encloses.exists_mem_lambdas caught
      exact apart name body member leaves.kept
    · exact uncaught caught

/-- Every bound closure is the value of a closed abstraction, written as a source text and evaluated
with no environment. -/
def Environment.OfLiterals (env : Environment) : Prop :=
  ∀ name value, env.get? name = some value → ∃ text param body,
    parse text = .ok (.lam param body) ∧ (Term.lam param body).freeNames = [] ∧
      Settles text .empty (.value value)

/-- The value of an abstraction is its closure, with the environment it was evaluated in. -/
theorem Settles.eq_of_parse_lam {text param : String} {body : Term} {env : Environment}
    {ending : Outcome SourceError Closure} (parsed : parse text = .ok (.lam param body))
    (settles : Settles text env ending) : ending = .value (.mk param body env) := by
  refine settles.unique ⟨nofun, 1, ?_⟩
  rw [evaluate_of_parse parsed]
  rfl

/-- The closures of closed literals capture nothing and leave nothing open. -/
theorem Environment.OfLiterals.closed_of_get? {env : Environment} (literals : env.OfLiterals)
    {name : String} {value : Closure} (bound : env.get? name = some value) :
    value.env = .empty ∧ value.lambda.freeNames = [] := by
  obtain ⟨text, param, body, parsed, closed, settles⟩ := literals name value bound
  cases settles.eq_of_parse_lam parsed
  exact ⟨rfl, closed⟩

theorem Environment.OfLiterals.hereditarilyClosed {env : Environment} (literals : env.OfLiterals) :
    env.HereditarilyClosed := by
  intro name value bound
  obtain ⟨captured, closed⟩ := literals.closed_of_get? bound
  refine .intro ?_ ?_
  · rw [closed]
    exact nofun
  · rw [captured]
    exact nofun

/-- The scope of a single builtin, the numeral `zero`. -/
def zeroScope : Environment :=
  .extend .empty "zero" (.mk "f" (.lam "x" (.var "x")) .empty)

theorem zeroScope_ofLiterals : zeroScope.OfLiterals := by
  intro name value bound
  rcases Environment.get?_extend_eq_some_iff.mp bound with ⟨-, rfl⟩ | ⟨-, bound⟩
  · exact ⟨"(\\f.(\\x.x))", "f", .lam "x" (.var "x"), rfl, rfl, nofun, 1, rfl⟩
  · cases bound

/-- A symbolic name need not denote the builtin. A program can bind the name of a builtin to an
argument of its own, and the reader who puts the builtin in the place of the name gets another
term. -/
theorem symbolic_name_denotes_argument :
    ¬ ∀ (scope : Environment), scope.OfLiterals → ∀ (symbolic : List String),
      (∀ name ∈ symbolic, ∃ value, scope.get? name = some value) →
      ∀ (depth : Nat) (text : String) (term : Term) (closure : Closure), parse text = .ok term →
        (∀ name ∈ term.freeNames, ∃ value, scope.get? name = some value) →
        evaluate depth text scope = .value closure →
        (closure.readback symbolic).resolve scope [] = closure.readback [] := by
  intro denotes
  let term : Term := .app (.lam "zero" (.lam "y" (.var "zero"))) (.lam "i" (.var "i"))
  let closure : Closure :=
    .mk "y" (.var "zero") (zeroScope.extend "zero" (.mk "i" (.var "i") zeroScope))
  have same := denotes zeroScope zeroScope_ofLiterals ["zero"] (by simp [zeroScope]) 3
    "((\\zero.(\\y.zero)) (\\i.i))" term closure rfl (by simp [term]) rfl
  have put : (closure.readback ["zero"]).resolve zeroScope [] =
      .lam "y" (.lam "f" (.lam "x" (.var "x"))) := rfl
  have full : closure.readback [] = .lam "y" (.lam "i" (.var "i")) := rfl
  rw [put, full] at same
  exact absurd same (by decide)

/-- When symbolic names denote the builtins of a scope. Let a source text with its free names in a
scope of closed literals have a value. The term that the value is read back as with symbolic names,
with the scope put in the place of these, is the full term if and only if every name that was left
in place stands under no parameter of the same name, and is bound there to a closure that is read
back as the builtin of that name is. It is so whenever no symbolic name is the parameter of an
abstraction, in the text or in a literal of the scope. -/
theorem symbolic_names_denote_builtins_iff (scope : Environment) (literals : scope.OfLiterals)
    (symbolic : List String) (depth : Nat) (text : String) (term : Term) (closure : Closure)
    (parsed : parse text = .ok term)
    (bound : ∀ name ∈ term.freeNames, ∃ value, scope.get? name = some value)
    (run : evaluate depth text scope = .value closure) :
    ((closure.readback symbolic).resolve scope [] = closure.readback [] ↔
      ∀ around name value, closure.LeavesSymbolic symbolic around name value →
        name ∉ around ∧ ∃ builtin, scope.get? name = some builtin ∧
          builtin.readback [] = value.readback []) ∧
    ((∀ param body, .lam param body ∈ term.lambdas → param ∉ symbolic) →
      (∀ name builtin, scope.get? name = some builtin →
        ∀ param body, .lam param body ∈ builtin.lambda.lambdas → param ∉ symbolic) →
      (closure.readback symbolic).resolve scope [] = closure.readback []) := by
  rw [evaluate_of_parse parsed, Outcome.mapError_eq_value_iff] at run
  have closed : closure.HereditarilyClosed :=
    RunInvariant.closedScope.of_eval_value ⟨literals.hereditarilyClosed, bound⟩ run
  have exactly : (closure.readback symbolic).resolve scope [] = closure.readback [] ↔
      ∀ around name value, closure.LeavesSymbolic symbolic around name value →
        name ∉ around ∧ ∃ builtin, scope.get? name = some builtin ∧
          builtin.readback [] = value.readback [] := by
    rw [Term.resolve, ← Term.sparing_nil (scope.readback? []), closed.replace_readback_eq_iff]
    simp [Environment.readback?_eq]
  refine ⟨exactly, fun apart builtinsApart => exactly.mpr ?_⟩
  have start : (LexicalProperty.fixes scope symbolic).invariant.OnTerm term scope := by
    refine ⟨⟨apart, fun _ _ _ lookup => lookup⟩, ?_⟩
    intro name builtin lookup target reaches
    obtain ⟨captured, -⟩ := literals.closed_of_get? lookup
    rcases Closure.reaches_iff.mp reaches with rfl | ⟨_, _, inside, _⟩
    · refine ⟨builtinsApart name builtin lookup, ?_⟩
      rw [captured]
      intro _ _ _ inside
      cases inside
    · rw [captured] at inside
      cases inside
  have fixes : (LexicalProperty.fixes scope symbolic).Everywhere closure :=
    RunInvariant.of_eval_value _ start run
  intro around name value leaves
  obtain ⟨uncaught, found⟩ := leaves.of_fixes fixes
  exact ⟨uncaught, value, found, rfl⟩

/-- The builtin is kept symbolic in the value and in a closure that the value captured. -/
theorem symbolic_names_denote_builtins_iff_captured :
    ∃ closure, evaluate 3 "((\\a.(\\y.(a zero))) (\\u.zero))" zeroScope = .value closure ∧
      closure.render ["zero"] = "(\\y.((\\u.zero) zero))" ∧
      closure.LeavesSymbolic ["zero"] ["y", "u"] "zero" (.mk "f" (.lam "x" (.var "x")) .empty) ∧
      (closure.readback ["zero"]).resolve zeroScope [] = closure.readback [] := by
  let term : Term := .app (.lam "a" (.lam "y" (.app (.var "a") (.var "zero"))))
    (.lam "u" (.var "zero"))
  let wrapper : Closure := .mk "u" (.var "zero") zeroScope
  let closure : Closure := .mk "y" (.app (.var "a") (.var "zero")) (zeroScope.extend "a" wrapper)
  have parsed : parse "((\\a.(\\y.(a zero))) (\\u.zero))" = .ok term := rfl
  have run : evaluate 3 "((\\a.(\\y.(a zero))) (\\u.zero))" zeroScope = .value closure := rfl
  have inWrapper : wrapper.lambda.Encloses ["u"] (.var "zero") := .lam (.refl _)
  have inClosure : closure.lambda.Encloses ["y"] (.var "a") := .lam (.fn (.refl _))
  have leaves := Closure.LeavesSymbolic.inside inClosure (by simp) (by simp) rfl
    (.here inWrapper (by simp) (List.mem_singleton_self "zero") rfl)
  have bound : ∀ name ∈ term.freeNames, ∃ value, zeroScope.get? name = some value := by
    have free : term.freeNames = ["zero", "zero"] := rfl
    simp [free, zeroScope]
  have denotes := (symbolic_names_denote_builtins_iff zeroScope zeroScope_ofLiterals ["zero"] 3 _
    term closure parsed bound run).2
  refine ⟨closure, run, rfl, leaves, denotes ?_ ?_⟩
  · intro param body member
    simp only [term, Term.lambdas, List.cons_append, List.nil_append, List.append_nil,
      List.mem_cons, Term.lam.injEq, List.not_mem_nil, or_false] at member
    rcases member with ⟨rfl, -⟩ | ⟨rfl, -⟩ | ⟨rfl, -⟩ <;> decide
  · intro name builtin lookup param body member
    rcases Environment.get?_extend_eq_some_iff.mp lookup with ⟨-, rfl⟩ | ⟨-, lookup⟩
    · simp only [Closure.lambda, Closure.param_mk, Closure.body_mk, Term.lambdas, List.mem_cons,
        Term.lam.injEq, List.not_mem_nil, or_false] at member
      rcases member with ⟨rfl, -⟩ | ⟨rfl, -⟩ <;> decide
    · cases lookup

end LambdaTutor
