import LambdaTutor.Proofs.Evaluation.Bound
import LambdaTutor.Proofs.Parsing.Layout

/-!
# Definitions are lets

A name can be defined from outside, by extending the environment in which a program runs, or inside
of the program, by an abstraction that is applied where it stands. Both evaluate the definition
first and then the program with the name bound, in the very same environment (`evaluate_letText`).
A list of definitions is then one program text, `letTexts`, with one let around the other. The text
needs a larger bound, by one for each let, so the two are compared without their bounds.
-/

namespace LambdaTutor

/-- Restating the error of a sequence restates the errors of its parts. -/
theorem Outcome.mapError_bind {ε ε' α β : Type} (restate : ε → ε') (outcome : Outcome ε α)
    (next : α → Outcome ε β) :
    (outcome >>= next).mapError restate =
      (outcome.mapError restate >>= fun value => (next value).mapError restate) := by
  cases outcome <;> rfl

/-- An abstraction that is applied where it stands captures the environment in force, so its body is
run there, with the parameter bound to the value of the argument. -/
theorem Term.eval_let (depth : Nat) (name : String) (body definition : Term) (env : Environment) :
    (app (lam name body) definition).eval (depth + 2) env =
      (definition.eval (depth + 1) env >>= fun value =>
        body.eval (depth + 1) (env.extend name value)) := rfl

/-- The text that defines a name for a program. -/
def letText (name program definition : String) : String :=
  "((\\" ++ name ++ "." ++ program ++ ") " ++ definition ++ ")"

/-- The text that makes definitions one after the other, each for those behind it and for the
program. -/
def letTexts (definitions : List (String × String)) (program : String) : String :=
  definitions.foldr (fun (name, definition) program => letText name program definition) program

/-- The value of a program once definitions are made. -/
def evaluateAfter (depth : Nat) (env : Environment) (definitions : List (String × String))
    (program : String) : Outcome SourceError Closure := do
  evaluate depth program (← define depth env definitions)

/-- Making definitions and running a program ends in the given way, once the bound is large
enough. -/
def SettlesAfter (definitions : List (String × String)) (program : String) (env : Environment)
    (ending : Outcome SourceError Closure) : Prop :=
  ending ≠ .exhausted ∧ ∃ depth, evaluateAfter depth env definitions program = ending

/-- A definition that can be written: of an identifier, by a text that spells out a term. -/
def IsDefinition (definition : String × String) : Prop :=
  IsName definition.1 ∧ ∃ term, parse definition.2 = .ok term

section Lets

variable {name program definition : String} {body value : Term}
  {definitions : List (String × String)}

/-- A let is an abstraction that is applied to the definition. -/
theorem letText_eq (name program definition : String) :
    letText name program definition = applyText (abstractText name program) definition := by
  rw [← String.toList_inj]
  simp [letText, applyText, abstractText]

/-- The text of a let is parsed to the application of an abstraction. -/
theorem parse_letText (isName : IsName name) (programParsed : parse program = .ok body)
    (definitionParsed : parse definition = .ok value) :
    parse (letText name program definition) = .ok (.app (.lam name body) value) := by
  rw [letText_eq]
  exact parse_applyText (parse_abstractText isName programParsed) definitionParsed

/-- A let evaluates the definition and then the program, with the name bound. -/
theorem evaluate_letText (isName : IsName name) (programParsed : parse program = .ok body)
    (definitionParsed : parse definition = .ok value) (depth : Nat) (env : Environment) :
    evaluate (depth + 2) (letText name program definition) env =
      (evaluate (depth + 1) definition env >>= fun closure =>
        evaluate (depth + 1) program (env.extend name closure)) := by
  rw [evaluate_of_parse (parse_letText isName programParsed definitionParsed), Term.eval_let,
    Outcome.mapError_bind, evaluate_of_parse definitionParsed]
  simp only [evaluate_of_parse programParsed]

/-- Within a bound of one or less there is no time for the definition. -/
theorem evaluate_letText_of_le_one (isName : IsName name) (programParsed : parse program = .ok body)
    (definitionParsed : parse definition = .ok value) {depth : Nat} (small : depth ≤ 1)
    (env : Environment) : evaluate depth (letText name program definition) env = .exhausted := by
  rw [evaluate_of_parse (parse_letText isName programParsed definitionParsed)]
  obtain rfl | rfl : depth = 0 ∨ depth = 1 := by omega
  · rfl
  · rfl

/-- The text of lets around a program spells out a term. -/
theorem exists_parse_letTexts (written : ∀ definition ∈ definitions, IsDefinition definition)
    (programParsed : ∃ term, parse program = .ok term) :
    ∃ term, parse (letTexts definitions program) = .ok term := by
  induction definitions with
  | nil => exact programParsed
  | cons definition rest ih =>
    obtain ⟨⟨isName, value, definitionParsed⟩, restWritten⟩ := List.forall_mem_cons.mp written
    obtain ⟨body, restParsed⟩ := ih restWritten
    exact ⟨_, parse_letText isName restParsed definitionParsed⟩

/-- The first definition is evaluated before the others, and they see it. -/
theorem evaluateAfter_cons (depth : Nat) (env : Environment) (name definition : String)
    (definitions : List (String × String)) (program : String) :
    evaluateAfter depth env ((name, definition) :: definitions) program =
      (evaluate depth definition env >>= fun closure =>
        evaluateAfter depth (env.extend name closure) definitions program) := by
  simp only [evaluateAfter, define, List.foldlM_cons, bind_assoc, pure_bind]

/-- Definitions are made in order, and the later ones see the earlier ones. -/
theorem evaluateAfter_append (depth : Nat) (env : Environment)
    (first second : List (String × String)) (program : String) :
    evaluateAfter depth env (first ++ second) program =
      (define depth env first >>= fun scope => evaluateAfter depth scope second program) := by
  simp only [evaluateAfter, define, List.foldlM_append, bind_assoc]

/-- Making definitions persists under a larger bound. -/
theorem define_persistsIn {depth deeper : Nat} (within : depth ≤ deeper) (env : Environment)
    (definitions : List (String × String)) :
    (define depth env definitions).PersistsIn (define deeper env definitions) := by
  refine Outcome.PersistsIn.foldlM (fun env definition => ?_) definitions env
  exact (evaluate_persistsIn within definition.2 env).bind fun _ => .refl _

/-- Where the text of lets ends, the definitions and the program end in the same way. -/
theorem evaluate_letTexts_persistsIn (written : ∀ definition ∈ definitions, IsDefinition definition)
    (programParsed : ∃ term, parse program = .ok term) {depth deeper : Nat}
    (within : depth ≤ deeper) (env : Environment) :
    (evaluate depth (letTexts definitions program) env).PersistsIn
      (evaluateAfter deeper env definitions program) := by
  induction definitions generalizing depth env with
  | nil => exact evaluate_persistsIn within program env
  | cons definition rest ih =>
    obtain ⟨name, text⟩ := definition
    obtain ⟨⟨isName, value, definitionParsed⟩, restWritten⟩ := List.forall_mem_cons.mp written
    obtain ⟨body, restParsed⟩ := exists_parse_letTexts restWritten programParsed
    rcases Nat.lt_or_ge 1 depth with large | small
    · obtain ⟨inner, rfl⟩ : ∃ inner, depth = inner + 2 := ⟨depth - 2, by omega⟩
      rw [evaluateAfter_cons, letTexts, List.foldr_cons, ← letTexts,
        evaluate_letText isName restParsed definitionParsed]
      refine (evaluate_persistsIn (by omega) text env).bind fun closure => ?_
      exact ih restWritten (by omega) (env.extend name closure)
    · intro ends
      exact absurd (evaluate_letText_of_le_one isName restParsed definitionParsed small env) ends

/-- Where the definitions and the program end, the text of lets ends in the same way. -/
theorem evaluateAfter_persistsIn (written : ∀ definition ∈ definitions, IsDefinition definition)
    (programParsed : ∃ term, parse program = .ok term) {depth deeper : Nat}
    (within : depth + definitions.length < deeper) (env : Environment) :
    (evaluateAfter depth env definitions program).PersistsIn
      (evaluate deeper (letTexts definitions program) env) := by
  induction definitions generalizing deeper env with
  | nil => exact evaluate_persistsIn (by simpa using Nat.le_of_lt within) program env
  | cons definition rest ih =>
    obtain ⟨name, text⟩ := definition
    obtain ⟨⟨isName, value, definitionParsed⟩, restWritten⟩ := List.forall_mem_cons.mp written
    obtain ⟨body, restParsed⟩ := exists_parse_letTexts restWritten programParsed
    rw [List.length_cons] at within
    obtain ⟨inner, rfl⟩ : ∃ inner, deeper = inner + 2 := ⟨deeper - 2, by omega⟩
    rw [evaluateAfter_cons, letTexts, List.foldr_cons, ← letTexts,
      evaluate_letText isName restParsed definitionParsed]
    refine (evaluate_persistsIn (by omega) text env).bind fun closure => ?_
    exact ih restWritten (by omega) (env.extend name closure)

end Lets

/-- Defining names from outside is the same as lets in the program. For identifiers as names and for
texts that spell out terms, making the definitions one after the other and then running the program
settles exactly as the one text does that has a let for each of them: with the same error, or with
the very same closure, its captured environment included. A definition that fails behind others that
have values ends both with its error. -/
theorem definitions_are_lets (env : Environment) (definitions : List (String × String))
    (program : String) (written : ∀ definition ∈ definitions, IsDefinition definition)
    (programParsed : ∃ term, parse program = .ok term) :
    (∀ ending, SettlesAfter definitions program env ending ↔
      Settles (letTexts definitions program) env ending) ∧
    ∀ before name text behind scope cause, definitions = before ++ (name, text) :: behind →
      (∃ depth, define depth env before = .value scope) → Settles text scope (.error cause) →
      SettlesAfter definitions program env (.error cause) ∧
        Settles (letTexts definitions program) env (.error cause) := by
  have same (ending) : SettlesAfter definitions program env ending ↔
      Settles (letTexts definitions program) env ending := by
    constructor
    · rintro ⟨ends, depth, run⟩
      have persists := evaluateAfter_persistsIn written programParsed
        (Nat.lt_succ_self (depth + definitions.length)) env
      exact ⟨ends, _, persists.eq run ends⟩
    · rintro ⟨ends, depth, run⟩
      have persists := evaluate_letTexts_persistsIn written programParsed (Nat.le_refl depth) env
      exact ⟨ends, depth, persists.eq run ends⟩
  refine ⟨same, ?_⟩
  rintro before name text behind scope cause rfl ⟨beforeDepth, made⟩ ⟨-, failDepth, failed⟩
  let depth := max beforeDepth failDepth
  have made : define depth env before = .value scope :=
    (define_persistsIn (Nat.le_max_left ..) env before).eq made (by simp)
  have failed : evaluate depth text scope = .error cause :=
    (evaluate_persistsIn (Nat.le_max_right ..) text scope).eq failed (by simp)
  have settles : SettlesAfter (before ++ (name, text) :: behind) program env (.error cause) := by
    refine ⟨by simp, depth, ?_⟩
    rw [evaluateAfter_append, made, Outcome.value_bind, evaluateAfter_cons, failed,
      Outcome.error_bind]
  exact ⟨settles, (same _).mp settles⟩

/-- A builtin is defined again by means of itself, in a layout of its own; then a definition fails
in the middle of others. -/
theorem definitions_are_lets_shadowing :
    Settles "((\\id.((\\id.(id (\\z.z))) ( \\y .\n(id y) ))) (\\x.x))" .empty
      (.value (.mk "z" (.var "z") (.extend (.extend .empty "id" (.mk "x" (.var "x") .empty)) "id"
        (.mk "y" (.app (.var "id") (.var "y"))
          (.extend .empty "id" (.mk "x" (.var "x") .empty)))))) ∧
    Settles "((\\a.((\\b.((\\c.a) other)) missing)) (\\x.x))" .empty
      (.error (.eval (.undefinedVariable "missing"))) := by
  have isName : IsName "id" ∧ IsName "a" ∧ IsName "b" ∧ IsName "c" := by
    have characters : ∀ c ∈ ['i', 'd', 'a', 'b', 'c'], isNameCharacter c = true := by
      simp only [List.forall_mem_cons]
      exact ⟨rfl, rfl, rfl, rfl, rfl, by simp⟩
    simpa [IsName, and_assoc] using characters
  have twice : ∀ definition ∈ [("id", "(\\x.x)"), ("id", "( \\y .\n(id y) )")],
      IsDefinition definition := by
    simp only [List.forall_mem_cons]
    exact ⟨⟨isName.1, _, rfl⟩, ⟨isName.1, _, rfl⟩, by simp⟩
  have failing : ∀ definition ∈ [("a", "(\\x.x)"), ("b", "missing"), ("c", "other")],
      IsDefinition definition := by
    simp only [List.forall_mem_cons]
    exact ⟨⟨isName.2.1, _, rfl⟩, ⟨isName.2.2.1, _, rfl⟩, ⟨isName.2.2.2, _, rfl⟩, by simp⟩
  obtain ⟨same, -⟩ := definitions_are_lets .empty _ "(id (\\z.z))" twice ⟨_, rfl⟩
  obtain ⟨-, fails⟩ := definitions_are_lets .empty _ "a" failing ⟨_, rfl⟩
  constructor
  · exact (same _).mp ⟨by simp, 5, rfl⟩
  · exact (fails [("a", "(\\x.x)")] "b" "missing" [("c", "other")] _ _ rfl ⟨1, rfl⟩
      ⟨by simp, 1, rfl⟩).2

end LambdaTutor
