import LambdaTutor.Proofs.Evaluation.Invariant
import LambdaTutor.Proofs.Parsing.Derivation
import LambdaTutor.Source

/-!
# How source text ends

What it takes for a source text to be parsed, to have a value and to fail. The table of the lexer
leaves no text without tokens, so parsing is decided by the grammar alone. `Settles` speaks of how
evaluation ends without its bound.
-/

namespace LambdaTutor

/-- Every text has significant tokens, and they are all that parsing looks at. -/
theorem exists_lexSignificant (text : String) :
    ∃ tokens, lexSignificant text = .ok tokens ∧
      parse text = (parseTokens tokens).mapError .parse := by
  obtain ⟨all, lexed⟩ := exists_lexFrom_tokenRules_eq_ok 0 text.toList
  have significant : lexSignificant text =
      .ok (all.filter fun token => !token.isWhitespace) := by
    unfold lexSignificant lex
    rw [lexed]
    rfl
  refine ⟨_, significant, ?_⟩
  unfold parse
  rw [significant]
  rfl

/-- A text is parsed to a term when its significant tokens derive the term. -/
theorem parse_eq_ok_iff {text : String} {term : Term} :
    parse text = .ok term ↔
      ∃ tokens, lexSignificant text = .ok tokens ∧ Derives tokens term := by
  obtain ⟨tokens, lexed, parsed⟩ := exists_lexSignificant text
  rw [parsed, lexed]
  simp only [Except.ok.injEq, exists_eq_left', ← parseTokens_eq_ok_iff]
  cases parseTokens tokens with
  | error cause => exact ⟨nofun, nofun⟩
  | ok found =>
    constructor <;>
      · intro same
        cases same
        rfl

/-- Parsing does not evaluate. -/
theorem parse_ne_eval_error (text : String) (cause : EvalError) :
    parse text ≠ .error (.eval cause) := by
  obtain ⟨tokens, -, parsed⟩ := exists_lexSignificant text
  rw [parsed]
  cases parseTokens tokens <;> nofun

/-- The errors of parsing are the writer's to mend: every text has tokens. -/
theorem isUserError_of_parse {text : String} {cause : SourceError}
    (failed : parse text = .error cause) : cause.isUserError = true := by
  obtain ⟨tokens, -, parsed⟩ := exists_lexSignificant text
  rw [parsed] at failed
  cases answer : parseTokens tokens with
  | ok term =>
    rw [answer] at failed
    cases failed
  | error fault =>
    rw [answer] at failed
    cases failed
    rfl

/-- A source text has a value exactly when it spells out a term whose run returns it. -/
theorem evaluate_eq_value_iff {depth : Nat} {text : String} {env : Environment}
    {closure : Closure} :
    evaluate depth text env = .value closure ↔
      ∃ term, parse text = .ok term ∧ term.eval depth env = .value closure := by
  simp only [evaluate, Outcome.bind_eq_value_iff, Outcome.ofExcept_eq_value_iff,
    Outcome.mapError_eq_value_iff]

/-- When evaluation of a source text fails, the text spells out a term whose run fails. -/
theorem exists_eval_error_of_evaluate {depth : Nat} {text : String} {env : Environment}
    {cause : EvalError} (run : evaluate depth text env = .error (.eval cause)) :
    ∃ term, parse text = .ok term ∧ term.eval depth env = .error cause := by
  unfold evaluate at run
  rcases Outcome.bind_eq_error_iff.mp run with failed | ⟨term, parsed, failed⟩
  · exact absurd (Outcome.ofExcept_eq_error_iff.mp failed) (parse_ne_eval_error text cause)
  · obtain ⟨found, ended, same⟩ := Outcome.mapError_eq_error_iff.mp failed
    cases same
    exact ⟨term, Outcome.ofExcept_eq_value_iff.mp parsed, ended⟩

/-- So are the errors of evaluation. -/
theorem isUserError_of_evaluate {depth : Nat} {text : String} {env : Environment}
    {cause : SourceError} (failed : evaluate depth text env = .error cause) :
    cause.isUserError = true := by
  unfold evaluate at failed
  rcases Outcome.bind_eq_error_iff.mp failed with failed | ⟨term, -, failed⟩
  · exact isUserError_of_parse (Outcome.ofExcept_eq_error_iff.mp failed)
  · obtain ⟨found, -, rfl⟩ := Outcome.mapError_eq_error_iff.mp failed
    rfl

/-- What is parsed is evaluated as the term it spells out. -/
theorem evaluate_of_parse {text : String} {term : Term} (parsed : parse text = .ok term)
    (depth : Nat) (env : Environment) :
    evaluate depth text env = (term.eval depth env).mapError .eval := by
  rw [evaluate, parsed]
  rfl

/-- An evaluation that ends within its bound ends in the same way under any larger bound. -/
theorem evaluate_eq_of_le {depth deeper : Nat} (within : depth ≤ deeper) {text : String}
    {env : Environment} (ends : evaluate depth text env ≠ .exhausted) :
    evaluate deeper text env = evaluate depth text env := by
  cases parsed : parse text with
  | error cause => rw [evaluate, evaluate, parsed]; rfl
  | ok term =>
    rw [evaluate_of_parse parsed] at ends
    rw [evaluate_of_parse parsed, evaluate_of_parse parsed, Term.eval_eq_of_le within]
    intro exhausted
    exact ends (by rw [exhausted]; rfl)

/-- Evaluation of a source text ends in the given way, with a value or with an error, once its bound
is large enough. -/
def Settles (text : String) (env : Environment) (ending : Outcome SourceError Closure) : Prop :=
  ending ≠ .exhausted ∧ ∃ depth, evaluate depth text env = ending

/-- Evaluation ends in one way only. -/
theorem Settles.unique {text : String} {env : Environment}
    {ending other : Outcome SourceError Closure} (settles : Settles text env ending)
    (otherSettles : Settles text env other) : ending = other := by
  obtain ⟨ends, depth, rfl⟩ := settles
  obtain ⟨otherEnds, otherDepth, rfl⟩ := otherSettles
  rcases Nat.le_total depth otherDepth with within | within
  · exact (evaluate_eq_of_le within ends).symm
  · exact evaluate_eq_of_le within otherEnds

end LambdaTutor
