import LambdaTutor.Level.Judge
import LambdaTutor.Proofs.Evaluation.Bound
import Mathlib.Data.List.Forall2

/-!
# What a judgement takes

A judgement that ends with a report has evaluated the solution and, test by test, the inputs, the
output and the application; one that ends with an error has the error of one of these texts. The
statements here take each definition apart once, so that nothing else has to open them.
-/

namespace LambdaTutor

/-- A computation over a list has a value exactly when it has one for every item, in order. -/
theorem Outcome.mapM_eq_value_iff {ε α β : Type} {compute : α → Outcome ε β} {items : List α}
    {results : List β} :
    items.mapM compute = .value results ↔
      List.Forall₂ (fun item result => compute item = .value result) items results := by
  induction items generalizing results with
  | nil => cases results <;> simp
  | cons item items ih =>
    simp only [List.mapM_cons, bind_eq_value_iff, pure_eq, value.injEq, ih]
    constructor
    · rintro ⟨first, computed, rest, others, rfl⟩
      exact .cons computed others
    · intro all
      cases all with
      | cons computed others => exact ⟨_, computed, _, others, rfl⟩

/-- A computation over a list fails exactly when it fails for an item and has a value for every item
before it. -/
theorem Outcome.mapM_eq_error_iff {ε α β : Type} {compute : α → Outcome ε β} {items : List α}
    {cause : ε} :
    items.mapM compute = .error cause ↔
      ∃ before item behind results, items = before ++ item :: behind ∧
        List.Forall₂ (fun item result => compute item = .value result) before results ∧
        compute item = .error cause := by
  induction items with
  | nil => simp
  | cons first items ih =>
    simp only [List.mapM_cons, bind_eq_error_iff, pure_eq, reduceCtorEq, and_false, exists_false,
      or_false, ih]
    constructor
    · rintro (failed | ⟨value, computed, before, item, behind, results, rfl, values, failed⟩)
      · exact ⟨[], first, items, [], rfl, .nil, failed⟩
      · exact ⟨first :: before, item, behind, value :: results, rfl, .cons computed values, failed⟩
    · rintro ⟨before, item, behind, results, split, values, failed⟩
      cases values with
      | nil =>
        cases split
        exact .inl failed
      | cons computed values =>
        cases split
        exact .inr ⟨_, computed, _, item, behind, _, rfl, values, failed⟩

namespace Level

variable {level : Level} {depth index : Nat} {test : LevelTest} {verdict : Verdict}

/-- A test is passed exactly when applying the solution gives a value that equals the expected
one. -/
theorem verdict_eq_passed_iff {expected : Closure} {ending : Outcome EvalError Closure} :
    level.verdict index test expected ending = .value .passed ↔
      ∃ actual, ending = .value actual ∧ (actual == expected) = true := by
  cases ending with
  | value actual =>
    by_cases equal : (actual == expected) = true <;> simp [Level.verdict, failedTest, equal]
  | error cause => simp [Level.verdict, failedTest]
  | exhausted => simp [Level.verdict]

/-- A verdict takes values of all inputs and of the output, and an end of the application. -/
theorem judgeTest_eq_value_iff {scope : Environment} {solution : Closure} :
    level.judgeTest depth scope solution test index = .value verdict ↔
      ∃ args expected,
        List.Forall₂ (fun input arg => evaluate depth input scope = .value arg) test.inputs args ∧
        evaluate depth test.output scope = .value expected ∧
        level.verdict index test expected (solution.applyAll depth args) = .value verdict := by
  simp only [judgeTest, Outcome.bind_eq_value_iff, Outcome.mapM_eq_value_iff, exists_and_left]

/-- A report takes a value of the solution and a verdict on every test, in order. -/
theorem judge_eq_value_iff {source : String} {solved : Environment} {solution : Closure}
    {report : Report} :
    level.judge depth source solved = .value (solution, report) ↔
      evaluate depth source (level.scope solved) = .value solution ∧
        report.builtinName = level.builtinName ∧
        List.Forall₂ (fun entry verdict =>
          level.judgeTest depth (level.scope solved) solution entry.1 entry.2 = .value verdict)
          level.tests.zipIdx report.verdicts := by
  obtain ⟨builtinName, verdicts⟩ := report
  simp only [judge, Outcome.bind_eq_value_iff, Outcome.mapM_eq_value_iff, Outcome.pure_eq,
    Outcome.value.injEq, Prod.mk.injEq, Report.mk.injEq]
  constructor
  · rintro ⟨_, evaluated, _, judged, rfl, rfl, rfl⟩
    exact ⟨evaluated, rfl, judged⟩
  · rintro ⟨evaluated, rfl, judged⟩
    exact ⟨solution, evaluated, verdicts, judged, rfl, rfl, rfl⟩

/-- A report has one verdict for every test, in the order of the tests. -/
theorem verdicts_of_judge {source : String} {solved : Environment} {solution : Closure}
    {report : Report} (judged : level.judge depth source solved = .value (solution, report)) :
    report.verdicts.length = level.tests.length ∧
      ∀ (index : Nat) (test : LevelTest) (verdict : Verdict), level.tests[index]? = some test →
        report.verdicts[index]? = some verdict →
        level.judgeTest depth (level.scope solved) solution test index = .value verdict := by
  obtain ⟨-, -, verdicts⟩ := judge_eq_value_iff.mp judged
  obtain ⟨lengths, each⟩ := List.forall₂_iff_get.mp verdicts
  rw [List.length_zipIdx] at lengths
  refine ⟨lengths.symm, fun index test verdict tested reported => ?_⟩
  obtain ⟨inTests, rfl⟩ := List.getElem?_eq_some_iff.mp tested
  obtain ⟨inVerdicts, rfl⟩ := List.getElem?_eq_some_iff.mp reported
  simpa using each index (by simpa using inTests) inVerdicts

/-- The solution of a judgement that ends with a report has the value that is reported. -/
theorem settles_of_judge {source : String} {solved : Environment} {solution : Closure}
    {report : Report} (judged : level.judge depth source solved = .value (solution, report)) :
    Settles source (level.scope solved) (.value solution) :=
  ⟨by simp, depth, (judge_eq_value_iff.mp judged).1⟩

/-- So have the texts of every test, and a verdict on how the application ended is reported for
it. -/
theorem exists_verdict_of_judge {source : String} {solved : Environment} {solution : Closure}
    {report : Report} (judged : level.judge depth source solved = .value (solution, report))
    (tested : level.tests[index]? = some test) :
    ∃ args expected verdict,
      List.Forall₂ (fun input arg => Settles input (level.scope solved) (.value arg))
        test.inputs args ∧
      Settles test.output (level.scope solved) (.value expected) ∧
      report.verdicts[index]? = some verdict ∧
      level.verdict index test expected (solution.applyAll depth args) = .value verdict := by
  obtain ⟨lengths, verdicts⟩ := verdicts_of_judge judged
  obtain ⟨inside, -⟩ := List.getElem?_eq_some_iff.mp tested
  obtain ⟨verdict, reported⟩ : ∃ verdict, report.verdicts[index]? = some verdict :=
    ⟨_, List.getElem?_eq_getElem (by omega)⟩
  obtain ⟨args, expected, inputs, output, given⟩ :=
    judgeTest_eq_value_iff.mp (verdicts index test verdict tested reported)
  exact ⟨args, expected, verdict, inputs.imp fun _ _ run => ⟨by simp, depth, run⟩,
    ⟨by simp, depth, output⟩, reported, given⟩

/-- A verdict is no error, whatever the application ended with. -/
theorem verdict_ne_error {expected : Closure} {ending : Outcome EvalError Closure}
    {cause : SourceError} : level.verdict index test expected ending ≠ .error cause := by
  cases ending with
  | value actual => by_cases equal : (actual == expected) = true <;> simp [Level.verdict, equal]
  | error found => simp [Level.verdict]
  | exhausted => simp [Level.verdict]

/-- A test that ends without a verdict fails with the error of one of its texts. -/
theorem exists_evaluate_of_judgeTest_eq_error {scope : Environment} {solution : Closure}
    {cause : SourceError}
    (failed : level.judgeTest depth scope solution test index = .error cause) :
    ∃ text ∈ test.inputs ++ [test.output], evaluate depth text scope = .error cause := by
  unfold judgeTest at failed
  rcases Outcome.bind_eq_error_iff.mp failed with failed | ⟨args, -, failed⟩
  · obtain ⟨before, input, behind, -, split, -, failed⟩ := Outcome.mapM_eq_error_iff.mp failed
    exact ⟨input, by simp [split], failed⟩
  · rcases Outcome.bind_eq_error_iff.mp failed with failed | ⟨expected, -, failed⟩
    · exact ⟨test.output, by simp, failed⟩
    · exact absurd failed verdict_ne_error

/-- A judgement that ends without a report fails with an error that the writer of a text can
mend. -/
theorem isUserError_of_judge {source : String} {solved : Environment} {cause : SourceError}
    (failed : level.judge depth source solved = .error cause) : cause.isUserError = true := by
  unfold judge at failed
  rcases Outcome.bind_eq_error_iff.mp failed with failed | ⟨solution, -, failed⟩
  · exact isUserError_of_evaluate failed
  · rcases Outcome.bind_eq_error_iff.mp failed with failed | ⟨verdicts, -, failed⟩
    · obtain ⟨before, entry, behind, -, -, -, failed⟩ := Outcome.mapM_eq_error_iff.mp failed
      obtain ⟨text, -, failed⟩ := exists_evaluate_of_judgeTest_eq_error failed
      exact isUserError_of_evaluate failed
    · cases failed

/-- The verdict persists when the end of the application does. -/
theorem verdict_persistsIn {expected : Closure} {ending larger : Outcome EvalError Closure}
    (persists : ending.PersistsIn larger) :
    (level.verdict index test expected ending).PersistsIn
      (level.verdict index test expected larger) := by
  intro ends
  have applicationEnds : ending ≠ .exhausted := by
    rintro rfl
    exact ends rfl
  rw [persists applicationEnds]

/-- A judgement that ends within its bound ends in the same way under any larger bound. -/
theorem judge_persistsIn {deeper : Nat} (within : depth ≤ deeper) (level : Level) (source : String)
    (solved : Environment) :
    (level.judge depth source solved).PersistsIn (level.judge deeper source solved) := by
  refine (evaluate_persistsIn within source _).bind fun solution => ?_
  refine (Outcome.PersistsIn.mapM (fun entry => ?_) _).bind fun verdicts => .refl _
  refine (Outcome.PersistsIn.mapM (fun input => evaluate_persistsIn within input _) _).bind
    fun args => ?_
  refine (evaluate_persistsIn within entry.1.output _).bind fun expected => ?_
  exact verdict_persistsIn (Closure.applyAll_persistsIn within solution args)

end Level

end LambdaTutor
