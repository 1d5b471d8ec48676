import LambdaTutor.Level.Curriculum
import LambdaTutor.Proofs.Level.Judge
import LambdaTutor.Proofs.Parsing.Layout

/-!
# Judging is running programs

A test can be read as a program: the text of the solution applied to the texts of the inputs, one
after the other. The judge evaluates all inputs first and then applies the solution's value; the
program evaluates each input when its turn comes. `settles_applyTexts` says that both end in the
same way, with the same value or with the same error, so every verdict of a report is the verdict on
a run of the program.
-/

namespace LambdaTutor

/-- The text that applies one text to several others, from left to right. -/
def applyTexts (source : String) (inputs : List String) : String :=
  inputs.foldl applyText source

/-- A closure is applied to the first argument, and the value of that to the others. -/
theorem Closure.applyAll_cons (depth : Nat) (fn arg : Closure) (args : List Closure) :
    fn.applyAll depth (arg :: args) =
      (fn.apply depth arg >>= fun next => next.applyAll depth args) := by
  rw [Closure.applyAll, List.foldlM_cons]
  rfl

section Programs

variable {source input : String} {inputs : List String} {scope : Environment} {depth : Nat}

/-- When both texts have values, applying one to the other ends as the call of the values does. -/
theorem settles_applyText {fn arg : Closure} (fnSettles : Settles source scope (.value fn))
    (argSettles : Settles input scope (.value arg)) (ends : fn.apply depth arg ≠ .exhausted) :
    Settles (applyText source input) scope ((fn.apply depth arg).mapError .eval) := by
  obtain ⟨-, fnDepth, fnRun⟩ := fnSettles
  obtain ⟨-, argDepth, argRun⟩ := argSettles
  obtain ⟨fnTerm, fnParsed, fnRun⟩ := evaluate_eq_value_iff.mp fnRun
  obtain ⟨argTerm, argParsed, argRun⟩ := evaluate_eq_value_iff.mp argRun
  obtain ⟨bound, run⟩ := Term.exists_eval_app_eq_apply fnRun argRun ends
  constructor
  · cases applied : fn.apply depth arg with
    | value result => simp
    | error cause => simp
    | exhausted => exact absurd applied ends
  · refine ⟨bound, ?_⟩
    rw [evaluate_of_parse (parse_applyText fnParsed argParsed), run]

/-- A text that fails when it is run fails in the same way when it is applied. -/
theorem settles_applyText_of_error {cause : EvalError} {arg : Closure}
    (fails : Settles source scope (.error (.eval cause)))
    (argSettles : Settles input scope (.value arg)) :
    Settles (applyText source input) scope (.error (.eval cause)) := by
  obtain ⟨-, bound, run⟩ := fails
  obtain ⟨-, argDepth, argRun⟩ := argSettles
  obtain ⟨fnTerm, fnParsed, run⟩ := exists_eval_error_of_evaluate run
  obtain ⟨argTerm, argParsed, -⟩ := evaluate_eq_value_iff.mp argRun
  refine ⟨by simp, bound + 1, ?_⟩
  rw [evaluate_of_parse (parse_applyText fnParsed argParsed),
    Term.eval_app_eq_error_iff.mpr (.inl run)]
  rfl

/-- So it does when it is applied to several texts that have values. -/
theorem settles_applyTexts_of_error {cause : EvalError} {args : List Closure}
    (settles : List.Forall₂ (fun input arg => Settles input scope (.value arg)) inputs args)
    (fails : Settles source scope (.error (.eval cause))) :
    Settles (applyTexts source inputs) scope (.error (.eval cause)) := by
  induction settles generalizing source with
  | nil => exact fails
  | cons argSettles _ ih => exact ih (settles_applyText_of_error fails argSettles)

/-- When all texts have values, applying one to the others ends as applying its value does. -/
theorem settles_applyTexts {fn : Closure} {args : List Closure}
    (settles : List.Forall₂ (fun input arg => Settles input scope (.value arg)) inputs args)
    (fnSettles : Settles source scope (.value fn)) (ends : fn.applyAll depth args ≠ .exhausted) :
    Settles (applyTexts source inputs) scope ((fn.applyAll depth args).mapError .eval) := by
  induction settles generalizing source fn with
  | nil => exact fnSettles
  | @cons input arg inputs args argSettles settles ih =>
    rw [Closure.applyAll_cons] at ends ⊢
    have callEnds : fn.apply depth arg ≠ .exhausted := by
      intro exhausted
      simp [exhausted] at ends
    have called := settles_applyText fnSettles argSettles callEnds
    cases applied : fn.apply depth arg with
    | value next =>
      rw [applied] at called ends
      exact ih called ends
    | error cause =>
      rw [applied] at called
      have failed : Settles (applyTexts (applyText source input) inputs) scope
          (.error (.eval cause)) := settles_applyTexts_of_error settles called
      exact failed
    | exhausted => exact absurd applied callEnds

end Programs

namespace Level

/-- A report is the outcome of running programs. It has one verdict for every test, in order. The
program of a test applies the text of the solution to the texts of the inputs; it settles in the
scope of the level, and the output has a value there. The test is passed exactly when the program
has a value that equals the value of the output. A program with another value, or with an error,
fails the test, and the failure shows that value or the error's message beside the expected one. -/
theorem judge_runs_programs {level : Level} {depth : Nat} {source : String} {solved : Environment}
    {solution : Closure} {report : Report}
    (judged : level.judge depth source solved = .value (solution, report)) :
    report.verdicts.length = level.tests.length ∧
    ∀ (index : Nat) (test : LevelTest) (verdict : Verdict),
      level.tests[index]? = some test → report.verdicts[index]? = some verdict →
      ∃ expected ending,
        Settles test.output (level.scope solved) (.value expected) ∧
        Settles (applyTexts source test.inputs) (level.scope solved) ending ∧
        (verdict = .passed ↔
          ∃ actual, Settles (applyTexts source test.inputs) (level.scope solved) (.value actual) ∧
            (actual == expected) = true) ∧
        (∀ actual, Settles (applyTexts source test.inputs) (level.scope solved) (.value actual) →
          (actual == expected) = false →
          verdict = .failed ⟨index, test.inputs, expected.render level.availableBuiltins,
            actual.render level.availableBuiltins⟩) ∧
        ∀ cause, Settles (applyTexts source test.inputs) (level.scope solved) (.error cause) →
          verdict = .failed ⟨index, test.inputs, expected.render level.availableBuiltins,
            cause.message⟩ := by
  refine ⟨(verdicts_of_judge judged).1, fun index test verdict tested reported => ?_⟩
  obtain ⟨args, expected, found, inputs, output, foundAt, given⟩ :=
    exists_verdict_of_judge judged tested
  obtain rfl : found = verdict := Option.some.inj (foundAt.symm.trans reported)
  have applicationEnds : solution.applyAll depth args ≠ .exhausted := by
    intro exhausted
    simp [exhausted, Level.verdict] at given
  have program := settles_applyTexts inputs (settles_of_judge judged) applicationEnds
  -- A program settles in one way, so what it settles to is how the application ended.
  have value_iff (actual : Closure) :
      Settles (applyTexts source test.inputs) (level.scope solved) (.value actual) ↔
        solution.applyAll depth args = .value actual := by
    constructor
    · intro settles
      exact Outcome.mapError_eq_value_iff.mp (program.unique settles)
    · intro applied
      rwa [applied] at program
  refine ⟨expected, _, output, program, ?_, ?_, ?_⟩
  · simp only [value_iff]
    rw [← verdict_eq_passed_iff, given, Outcome.value.injEq]
  · intro actual settles unequal
    rw [(value_iff actual).mp settles] at given
    simpa [Level.verdict, failedTest, unequal] using given.symm
  · intro cause settles
    obtain ⟨found, applied, rfl⟩ := Outcome.mapError_eq_error_iff.mp (program.unique settles)
    rw [applied] at given
    cases given
    rfl

/-- A solution in a layout of its own passes the second test of the first level. -/
theorem judge_runs_programs_identity :
    ∃ solution report,
      identityLevel.judge 2 "( \\z .\nz )" .empty = .value (solution, report) ∧
      report.verdicts[1]? = some .passed ∧
      ∃ expected actual,
        Settles "(\\y.y)" (identityLevel.scope .empty) (.value expected) ∧
        Settles "(( \\z .\nz ) (\\y.y))" (identityLevel.scope .empty) (.value actual) ∧
        (actual == expected) = true := by
  have judged : identityLevel.judge 2 "( \\z .\nz )" .empty =
      .value (.mk "z" (.var "z") .empty, ⟨"identity", [.passed, .passed]⟩) := rfl
  obtain ⟨-, verdicts⟩ := judge_runs_programs judged
  obtain ⟨expected, -, output, -, passed, -, -⟩ :=
    verdicts 1 ⟨["(\\y.y)"], "(\\y.y)"⟩ .passed rfl rfl
  obtain ⟨actual, program, equal⟩ := passed.mp rfl
  exact ⟨_, _, judged, rfl, expected, actual, output, program, equal⟩

end Level

end LambdaTutor
