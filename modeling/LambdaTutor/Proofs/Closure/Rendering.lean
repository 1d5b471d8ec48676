import LambdaTutor.Closure.Readback
import LambdaTutor.Proofs.Closure.Lookup
import LambdaTutor.Proofs.Evaluation.Code
import LambdaTutor.Proofs.Parsing.RoundTrip

/-!
# Rendered closures are source text

Reading a closure back writes no name that is not written in a closure it reaches. Closures that
come from source text are made of parsed code, so all their names are identifiers, and what is
rendered can be parsed again. It spells out an abstraction with nothing left to replace: evaluated
with no environment at all it is rendered as the same text, whatever names are kept symbolic.
-/

namespace LambdaTutor

/-- A closure that evaluation gave to a source text, in an environment whose closures were made in
the same way. -/
inductive Closure.FromSource : Closure → Prop where
  | evaluated {depth : Nat} {text : String} {env : Environment} {closure : Closure}
      (bound : ∀ name value, env.get? name = some value → FromSource value)
      (run : evaluate depth text env = .value closure) : FromSource closure

/-- Every bound closure comes from source text. -/
def Environment.FromSource (env : Environment) : Prop :=
  ∀ name value, env.get? name = some value → value.FromSource

namespace Term

/-- A replacement brings in no names but those of what it puts in. -/
theorem mem_writtenNames_of_replace {name : String} {term : Term}
    {replacement : String → Option Term}
    (written : name ∈ (term.replace replacement).writtenNames) :
    name ∈ term.writtenNames ∨
      ∃ replaced value, replacement replaced = some value ∧ name ∈ value.writtenNames := by
  induction term generalizing replacement with
  | var other =>
    cases found : replacement other with
    | none => exact .inl (by simpa [replace, found] using written)
    | some value => exact .inr ⟨other, value, found, by simpa [replace, found] using written⟩
  | lam param body ih =>
    rw [replace, writtenNames, List.mem_cons] at written
    rcases written with rfl | written
    · exact .inl (by simp [writtenNames])
    · rcases ih written with written | ⟨replaced, value, found, written⟩
      · exact .inl (by simp [writtenNames, written])
      · by_cases same : replaced = param
        · simp [same] at found
        · exact .inr ⟨replaced, value, by simpa [same] using found, written⟩
  | app fn arg fnIh argIh =>
    rw [replace, writtenNames, List.mem_append] at written
    rcases written with written | written
    · exact (fnIh written).imp_left fun written => by simp [writtenNames, written]
    · exact (argIh written).imp_left fun written => by simp [writtenNames, written]

/-- The names of an abstraction in a term are names of the term. -/
theorem mem_writtenNames_of_mem_lambdas {name : String} {term lambda : Term}
    (member : lambda ∈ term.lambdas) (written : name ∈ lambda.writtenNames) :
    name ∈ term.writtenNames := by
  induction term with
  | var other => cases member
  | lam param body ih =>
    rcases List.mem_cons.mp member with rfl | member
    · exact written
    · exact List.mem_cons_of_mem param (ih member)
  | app fn arg fnIh argIh =>
    rcases List.mem_append.mp member with member | member
    · exact List.mem_append_left _ (fnIh member)
    · exact List.mem_append_right _ (argIh member)

end Term

/-- Reading back writes only names that are written in the closures it reaches. -/
theorem Closure.mem_writtenNames_of_readback {name : String} {symbolic : List String}
    (closure : Closure) (written : name ∈ (closure.readback symbolic).writtenNames) :
    ∃ target, closure.Reaches target ∧ name ∈ target.lambda.writtenNames := by
  induction closure using Closure.bound_induction with
  | step closure ih =>
    obtain ⟨param, body, env⟩ := closure
    rw [Closure.readback, Term.writtenNames, List.mem_cons] at written
    rcases written with rfl | written
    · exact ⟨_, .refl _, by simp [Closure.lambda, Term.writtenNames]⟩
    · rcases Term.mem_writtenNames_of_replace written with
        written | ⟨replaced, value, found, written⟩
      · exact ⟨_, .refl _, by simp [Closure.lambda, Term.writtenNames, written]⟩
      · by_cases kept : replaced = param ∨ replaced ∈ symbolic
        · simp [kept] at found
        · rw [if_neg kept, Environment.readback?_eq, Option.map_eq_some_iff] at found
          obtain ⟨inner, bound, rfl⟩ := found
          obtain ⟨target, reaches, written⟩ := ih replaced inner bound written
          exact ⟨target, .step bound reaches, written⟩

/-- All names in a term can be written as identifiers. -/
def Term.Writable (term : Term) : Prop :=
  ∀ name ∈ term.writtenNames, IsName name

/-- What a closure is read back as can be written when all abstractions it reaches can. -/
theorem Closure.writable_readback {closure : Closure} (symbolic : List String)
    (writable : ∀ target, closure.Reaches target → target.lambda.Writable) :
    (closure.readback symbolic).Writable := by
  intro name written
  obtain ⟨target, reaches, written⟩ := closure.mem_writtenNames_of_readback written
  exact writable target reaches name written

/-- Evaluation of a source text makes closures of code that can be written, in an environment that
holds no other code. -/
theorem codeWithin_writable_of_evaluate {depth : Nat} {text : String} {env : Environment}
    {closure : Closure} (within : env.CodeWithin Term.Writable)
    (run : evaluate depth text env = .value closure) : closure.CodeWithin Term.Writable := by
  obtain ⟨term, parsed, run⟩ := evaluate_eq_value_iff.mp run
  have start : (RunInvariant.codeWithin Term.Writable).OnTerm term env := by
    refine ⟨fun lambda member name written => ?_, within⟩
    exact isName_of_parse parsed (Term.mem_writtenNames_of_mem_lambdas member written)
  exact RunInvariant.of_eval_value _ start run

/-- What a closure is read back as can be written when its code can. -/
theorem Closure.CodeWithin.writable_readback {closure : Closure}
    (within : closure.CodeWithin Term.Writable) (symbolic : List String) :
    (closure.readback symbolic).Writable :=
  Closure.writable_readback symbolic fun target reaches =>
    within target reaches target.lambda List.mem_cons_self

/-- Closures that come from source text are made of code that can be written. -/
theorem Closure.FromSource.codeWithin_writable {closure : Closure} (source : closure.FromSource) :
    closure.CodeWithin Term.Writable := by
  induction source with
  | evaluated _ run ih =>
    refine codeWithin_writable_of_evaluate ?_ run
    rintro target ⟨name, value, bound, reaches⟩
    exact ih name value bound target reaches

/-- What a closure from source text is read back as can be written. -/
theorem Closure.FromSource.writable_readback {closure : Closure} (source : closure.FromSource)
    (symbolic : List String) : (closure.readback symbolic).Writable :=
  source.codeWithin_writable.writable_readback symbolic

/-- With nothing captured a closure is read back as its abstraction. -/
theorem Closure.readback_of_empty (param : String) (body : Term) (symbolic : List String) :
    (Closure.mk param body .empty).readback symbolic = .lam param body := by
  simp [Closure.readback, Environment.readback?]

/-- A text that spells out an abstraction has a value, which captures nothing and is rendered as the
canonical text of the abstraction. -/
theorem exists_evaluate_of_parse_lam {text param : String} {body : Term}
    (parsed : parse text = .ok (.lam param body)) :
    ∃ value : Closure, value.env = .empty ∧
      (∀ depth, evaluate (depth + 1) text .empty = .value value) ∧
      ∀ symbolic, value.render symbolic = (Term.lam param body).print := by
  refine ⟨.mk param body .empty, rfl, fun depth => ?_, fun symbolic => ?_⟩
  · exact evaluate_eq_value_iff.mpr ⟨.lam param body, parsed, rfl⟩
  · rw [Closure.render, Closure.readback_of_empty]

/-- What is rendered is source text and a fixed point. The rendered text of a value that comes from
source text is parsed to the term that the value is read back as. Evaluated with no environment it
has a value that captures nothing and is rendered as the same text again, whatever is kept symbolic.
So a text that spells out an abstraction is rendered as the canonical text of that abstraction, and
a canonical text unchanged. -/
theorem rendered_text_is_fixed_point :
    (∀ (env : Environment), env.FromSource → ∀ (depth : Nat) (text : String) (closure : Closure),
      evaluate depth text env = .value closure → ∀ symbolic,
      parse (closure.render symbolic) = .ok (closure.readback symbolic) ∧
      ∃ value : Closure, value.env = .empty ∧
        (∀ depth, evaluate (depth + 1) (closure.render symbolic) .empty = .value value) ∧
        ∀ others, value.render others = closure.render symbolic) ∧
    (∀ (text param : String) (body : Term), parse text = .ok (.lam param body) →
      ∃ value : Closure, (∀ depth, evaluate (depth + 1) text .empty = .value value) ∧
        ∀ symbolic, value.render symbolic = (Term.lam param body).print) ∧
    ∀ (param : String) (body : Term), (Term.lam param body).Writable →
      ∃ value : Closure,
        (∀ depth, evaluate (depth + 1) (Term.lam param body).print .empty = .value value) ∧
        ∀ symbolic, value.render symbolic = (Term.lam param body).print := by
  refine ⟨?_, ?_, ?_⟩
  · intro env source depth text closure run symbolic
    have parsed : parse (closure.render symbolic) = .ok (closure.readback symbolic) :=
      Term.parse_print ((Closure.FromSource.evaluated source run).writable_readback symbolic)
    refine ⟨parsed, ?_⟩
    obtain ⟨param, body, captured⟩ := closure
    exact exists_evaluate_of_parse_lam parsed
  · intro text param body parsed
    obtain ⟨value, -, run, rendered⟩ := exists_evaluate_of_parse_lam parsed
    exact ⟨value, run, rendered⟩
  · intro param body names
    obtain ⟨value, -, run, rendered⟩ := exists_evaluate_of_parse_lam (Term.parse_print names)
    exact ⟨value, run, rendered⟩

/-- A builtin that is kept symbolic, a literal in a layout of its own and one in canonical text. -/
theorem rendered_text_is_fixed_point_builtin :
    (parse "(\\y.(id y))" = .ok (.lam "y" (.app (.var "id") (.var "y"))) ∧
      ∃ value : Closure, value.env = .empty ∧
        (∀ depth, evaluate (depth + 1) "(\\y.(id y))" .empty = .value value) ∧
        ∀ others, value.render others = "(\\y.(id y))") ∧
    (∃ value : Closure, (∀ depth, evaluate (depth + 1) "( \\x .\nx )" .empty = .value value) ∧
      ∀ symbolic, value.render symbolic = "(\\x.x)") ∧
    ∃ value : Closure, (∀ depth, evaluate (depth + 1) "(\\x.x)" .empty = .value value) ∧
      ∀ symbolic, value.render symbolic = "(\\x.x)" := by
  obtain ⟨onValues, onTexts, onLiterals⟩ := rendered_text_is_fixed_point
  have literal : (Term.lam "x" (.var "x")).print = "(\\x.x)" := rfl
  have parsed : parse "( \\x .\nx )" = .ok (.lam "x" (.var "x")) := rfl
  refine ⟨?_, ?_, ?_⟩
  · let closure : Closure := .mk "y" (.app (.var "id") (.var "y"))
      (.extend .empty "id" (.mk "x" (.var "x") .empty))
    have builtin : evaluate 1 "(\\x.x)" .empty = .value (.mk "x" (.var "x") .empty) := rfl
    have source : closure.env.FromSource := by
      intro name value found
      rcases Environment.get?_extend_eq_some_iff.mp found with ⟨-, rfl⟩ | ⟨-, found⟩
      · exact .evaluated (by simp) builtin
      · cases found
    have run : evaluate 1 "( \\y . (id y))" closure.env = .value closure := rfl
    have rendered : closure.render ["id"] = "(\\y.(id y))" := rfl
    have read : closure.readback ["id"] = .lam "y" (.app (.var "id") (.var "y")) := rfl
    have fixed := onValues closure.env source 1 "( \\y . (id y))" closure run ["id"]
    rwa [rendered, read] at fixed
  · rw [← literal]
    exact onTexts "( \\x .\nx )" "x" (.var "x") parsed
  · rw [← literal]
    exact onLiterals "x" (.var "x") fun name written => isName_of_parse parsed written

end LambdaTutor
