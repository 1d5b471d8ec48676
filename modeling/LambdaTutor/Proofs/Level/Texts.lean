import LambdaTutor.Proofs.Evaluation.Relation
import LambdaTutor.Proofs.Level.Judge

/-!
# The texts of a judgement

A judgement evaluates texts, the solution first and then those of the tests, and applies the
solution between them. What goes wrong in an application is a verdict and nothing more, so only the
texts can end a judgement. `Level.judge_endsAs` says this in one line: a judgement that ends, ends
as the evaluation of its texts in order does. The error of that is the error of the first text that
fails.
-/

namespace LambdaTutor

/-- The texts of a test, in the order in which they are evaluated. -/
def LevelTest.texts (test : LevelTest) : List String :=
  test.inputs ++ [test.output]

/-- The texts of a judgement, in the order in which they are evaluated: the solution and then those
of every test. -/
def Level.texts (level : Level) (source : String) : List String :=
  source :: level.tests.flatMap LevelTest.texts

/-- The error is that of the first text that fails; the texts before it do not fail. -/
inductive FirstFailure (scope : Environment) : List String → SourceError → Prop where
  | here {text : String} {rest : List String} {cause : SourceError}
      (fails : Settles text scope (.error cause)) : FirstFailure scope (text :: rest) cause
  | later {text : String} {rest : List String} {cause : SourceError}
      (unfailing : ∀ other, ¬Settles text scope (.error other))
      (failure : FirstFailure scope rest cause) : FirstFailure scope (text :: rest) cause

/-- Where the first computation ends, the second one ends alike, with a value of its own or with the
same error. -/
def Outcome.EndsAs {ε α β : Type} (outcome : Outcome ε α) (other : Outcome ε β) : Prop :=
  outcome ≠ .exhausted → Rel (fun _ _ => True) outcome other

/-- A sequence ends as another one when both parts do, whatever their values. -/
theorem Outcome.EndsAs.bind {ε α β γ δ : Type} {first : Outcome ε α} {second : Outcome ε β}
    {next : α → Outcome ε γ} {otherNext : β → Outcome ε δ} (firsts : first.EndsAs second)
    (rest : ∀ value other, (next value).EndsAs (otherNext other)) :
    (first >>= next).EndsAs (second >>= otherNext) := by
  intro ends
  have firstEnds : first ≠ .exhausted := by
    rintro rfl
    exact ends rfl
  cases firsts firstEnds with
  | value _ => exact rest _ _ ends
  | error cause => exact .error cause
  | exhausted => exact absurd rfl ends

/-- Computations end as themselves. -/
theorem Outcome.EndsAs.refl {ε α : Type} (outcome : Outcome ε α) : outcome.EndsAs outcome :=
  fun _ => (Rel.refl outcome).mono fun _ _ _ => trivial

/-- Values end alike. -/
theorem Outcome.EndsAs.value {ε α β : Type} (result : α) (other : β) :
    (pure result : Outcome ε α).EndsAs (pure other : Outcome ε β) :=
  fun _ => .value trivial

section FirstFailure

variable {scope : Environment} {texts : List String} {cause : SourceError} {depth : Nat}

/-- The text that fails is one of the texts. -/
theorem FirstFailure.exists_mem (failure : FirstFailure scope texts cause) :
    ∃ text ∈ texts, Settles text scope (.error cause) := by
  induction failure with
  | here fails => exact ⟨_, List.mem_cons_self, fails⟩
  | later _ _ ih =>
    obtain ⟨text, member, fails⟩ := ih
    exact ⟨text, List.mem_cons_of_mem _ member, fails⟩

/-- When a text fails, there is a first one. -/
theorem exists_firstFailure {text : String} (member : text ∈ texts)
    (fails : Settles text scope (.error cause)) : ∃ found, FirstFailure scope texts found := by
  induction texts with
  | nil => cases member
  | cons first rest ih =>
    by_cases failing : ∃ other, Settles first scope (.error other)
    · obtain ⟨other, firstFails⟩ := failing
      exact ⟨other, .here firstFails⟩
    · rcases List.mem_cons.mp member with rfl | member
      · exact absurd ⟨cause, fails⟩ failing
      · obtain ⟨found, failure⟩ := ih member
        exact ⟨found, .later (not_exists.mp failing) failure⟩

/-- Behind a text with a value the first failure is that of the others. -/
theorem firstFailure_cons_of_value {text : String} {rest : List String} {value : Closure}
    (settles : Settles text scope (.value value)) :
    FirstFailure scope (text :: rest) cause ↔ FirstFailure scope rest cause := by
  constructor
  · intro failure
    cases failure with
    | here fails => cases settles.unique fails
    | later _ failure => exact failure
  · intro failure
    refine .later (fun other fails => ?_) failure
    cases settles.unique fails

/-- At a text that fails the first failure is its own. -/
theorem firstFailure_cons_of_error {text : String} {rest : List String} {found : SourceError}
    (fails : Settles text scope (.error found)) :
    FirstFailure scope (text :: rest) cause ↔ found = cause := by
  constructor
  · intro failure
    cases failure with
    | here otherFails =>
      cases fails.unique otherFails
      rfl
    | later unfailing _ => exact absurd fails (unfailing found)
  · rintro rfl
    exact .here fails

/-- When the evaluation of texts in order ends, its error is that of the first text that fails. -/
theorem mapM_evaluate_eq_error_iff
    (ends : (texts.mapM fun text => evaluate depth text scope) ≠ .exhausted) :
    (texts.mapM fun text => evaluate depth text scope) = .error cause ↔
      FirstFailure scope texts cause := by
  induction texts with
  | nil => exact ⟨nofun, nofun⟩
  | cons text rest ih =>
    rw [List.mapM_cons] at ends ⊢
    cases run : evaluate depth text scope with
    | value value =>
      rw [run, Outcome.value_bind] at ends
      have restEnds : (rest.mapM fun text => evaluate depth text scope) ≠ .exhausted := by
        intro exhausted
        rw [exhausted] at ends
        exact ends rfl
      rw [Outcome.value_bind, firstFailure_cons_of_value ⟨by simp, depth, run⟩, ← ih restEnds]
      simp [Outcome.bind_eq_error_iff]
    | error found =>
      rw [firstFailure_cons_of_error ⟨by simp, depth, run⟩]
      simp
    | exhausted =>
      rw [run] at ends
      exact absurd rfl ends

end FirstFailure

namespace Level

variable {level : Level} {depth : Nat} {scope : Environment}

/-- A verdict is given, whatever the application ended with. -/
theorem verdict_endsAs {index : Nat} {test : LevelTest} {expected : Closure}
    {ending : Outcome EvalError Closure} {α : Type} (result : α) :
    (level.verdict index test expected ending).EndsAs (pure result) := by
  intro ends
  cases given : level.verdict index test expected ending with
  | value verdict => exact .value trivial
  | error cause => exact absurd given verdict_ne_error
  | exhausted => exact absurd given ends

/-- A test ends as the evaluation of its texts does. -/
theorem judgeTest_endsAs (level : Level) (depth : Nat) (scope : Environment) (solution : Closure)
    (test : LevelTest) (index : Nat) :
    (level.judgeTest depth scope solution test index).EndsAs
      (test.texts.mapM fun text => evaluate depth text scope) := by
  rw [LevelTest.texts, List.mapM_append]
  refine (Outcome.EndsAs.refl _).bind fun args values => ?_
  rw [List.mapM_cons, List.mapM_nil, bind_assoc]
  refine (Outcome.EndsAs.refl _).bind fun expected value => ?_
  exact verdict_endsAs _

/-- So do several tests, whatever their numbers. -/
theorem judgeTests_endsAs (level : Level) (depth : Nat) (scope : Environment) (solution : Closure)
    (tests : List LevelTest) (start : Nat) :
    ((tests.zipIdx start).mapM fun (test, index) =>
      level.judgeTest depth scope solution test index).EndsAs
      ((tests.flatMap LevelTest.texts).mapM fun text => evaluate depth text scope) := by
  induction tests generalizing start with
  | nil => exact .value [] []
  | cons test rest ih =>
    rw [List.zipIdx_cons, List.mapM_cons, List.flatMap_cons, List.mapM_append]
    refine (judgeTest_endsAs level depth scope solution test start).bind fun verdict values => ?_
    exact (ih (start + 1)).bind fun verdicts others => .value _ _

/-- A judgement that ends, ends as the evaluation of its texts in order does. -/
theorem judge_endsAs (level : Level) (depth : Nat) (source : String) (solved : Environment) :
    (level.judge depth source solved).EndsAs
      ((level.texts source).mapM fun text => evaluate depth text (level.scope solved)) := by
  rw [texts, List.mapM_cons]
  refine (Outcome.EndsAs.refl _).bind fun solution value => ?_
  refine (judgeTests_endsAs level depth _ solution level.tests 0).bind fun verdicts others => ?_
  exact .value _ _

/-- A judgement that ends, ends with an error exactly when a text fails, and it is the error of the
first one. -/
theorem judge_eq_error_iff {source : String} {solved : Environment} {cause : SourceError}
    (ends : level.judge depth source solved ≠ .exhausted) :
    level.judge depth source solved = .error cause ↔
      FirstFailure (level.scope solved) (level.texts source) cause := by
  have alike := judge_endsAs level depth source solved ends
  rw [alike.eq_error_iff]
  exact mapM_evaluate_eq_error_iff (mt alike.eq_exhausted_iff.mpr ends)

/-- A judgement that ends and none of whose texts fails has a value. -/
theorem exists_judge_eq_value {source : String} {solved : Environment}
    (ends : level.judge depth source solved ≠ .exhausted)
    (unfailing : ∀ text ∈ level.texts source, ∀ cause,
      ¬Settles text (level.scope solved) (.error cause)) :
    ∃ result, level.judge depth source solved = .value result := by
  cases judged : level.judge depth source solved with
  | value result => exact ⟨result, rfl⟩
  | error cause =>
    obtain ⟨text, member, fails⟩ := ((judge_eq_error_iff ends).mp judged).exists_mem
    exact absurd fails (unfailing text member cause)
  | exhausted => exact absurd judged ends

/-- Only texts end a judgement, never an application of the solution. A judgement that ends has an
error exactly when one of its texts fails, the solution or an input or output of a test, and it is
the error of the first text that does; it is always one that the writer of the text can mend. When
no text fails, the judgement has the value of the solution and one verdict for every test: where an
application failed, the verdict shows its message. -/
theorem only_texts_end_judgements (level : Level) (depth : Nat) (source : String)
    (solved : Environment) (returns : level.judge depth source solved ≠ .exhausted) :
    (∀ cause, level.judge depth source solved = .error cause ↔
      FirstFailure (level.scope solved) (level.texts source) cause) ∧
    ((∃ cause, level.judge depth source solved = .error cause) ↔
      ∃ text ∈ level.texts source, ∃ cause, Settles text (level.scope solved) (.error cause)) ∧
    ((∀ text ∈ level.texts source, ∀ cause, ¬Settles text (level.scope solved) (.error cause)) →
      ∃ solution report, level.judge depth source solved = .value (solution, report) ∧
        Settles source (level.scope solved) (.value solution) ∧
        report.verdicts.length = level.tests.length ∧
        ∀ index test, level.tests[index]? = some test →
          ∃ args expected verdict,
            List.Forall₂ (fun input arg => Settles input (level.scope solved) (.value arg))
              test.inputs args ∧
            Settles test.output (level.scope solved) (.value expected) ∧
            report.verdicts[index]? = some verdict ∧
            ∀ cause, solution.applyAll depth args = .error cause →
              verdict = level.failedTest index test expected (SourceError.eval cause).message) ∧
    ∀ cause, level.judge depth source solved = .error cause → cause.isUserError = true := by
  refine ⟨fun cause => judge_eq_error_iff returns, ⟨?_, ?_⟩, ?_, fun cause => isUserError_of_judge⟩
  · rintro ⟨cause, failed⟩
    obtain ⟨text, member, fails⟩ := ((judge_eq_error_iff returns).mp failed).exists_mem
    exact ⟨text, member, cause, fails⟩
  · rintro ⟨text, member, cause, fails⟩
    obtain ⟨found, failure⟩ := exists_firstFailure member fails
    exact ⟨found, (judge_eq_error_iff returns).mpr failure⟩
  · intro unfailing
    obtain ⟨⟨solution, report⟩, judged⟩ := exists_judge_eq_value returns unfailing
    refine ⟨solution, report, judged, settles_of_judge judged, (verdicts_of_judge judged).1, ?_⟩
    intro index test tested
    obtain ⟨args, expected, verdict, inputs, output, reported, given⟩ :=
      exists_verdict_of_judge judged tested
    refine ⟨args, expected, verdict, inputs, output, reported, fun cause failed => ?_⟩
    rw [failed] at given
    cases given
    rfl

/-- A level whose second test has two texts that fail. -/
def brokenLevel : Level where
  title := "Broken"
  description := ""
  tests := [⟨["(\\x.x)"], "(\\x.x)"⟩, ⟨["(\\y.y)", "oops"], "gone"⟩]
  availableBuiltins := []
  builtinName := "broken"

/-- An application fails in the first test and a text in the second one: the judgement ends with the
error of the text. With the first test alone it ends with a verdict. -/
theorem only_texts_end_judgements_broken :
    let firstOnly : Level := { brokenLevel with tests := brokenLevel.tests.take 1 }
    (brokenLevel.judge 2 "(\\z.missing)" .empty = .error (.eval (.undefinedVariable "oops")) ∧
      FirstFailure .empty ["(\\z.missing)", "(\\x.x)", "(\\x.x)", "(\\y.y)", "oops", "gone"]
        (.eval (.undefinedVariable "oops"))) ∧
    ∃ solution report,
      firstOnly.judge 2 "(\\z.missing)" .empty = .value (solution, report) ∧
        report.verdicts =
          [.failed ⟨0, ["(\\x.x)"], "(\\x.x)", "eval error: undefined variable: missing"⟩] ∧
        ∀ text ∈ ["(\\z.missing)", "(\\x.x)", "(\\x.x)"], ∀ cause,
          ¬Settles text .empty (.error cause) := by
  intro firstOnly
  have failed : brokenLevel.judge 2 "(\\z.missing)" .empty =
      .error (.eval (.undefinedVariable "oops")) := rfl
  obtain ⟨solution, report, judged, verdicts⟩ : ∃ solution report,
      firstOnly.judge 2 "(\\z.missing)" .empty = .value (solution, report) ∧ report.verdicts =
        [.failed ⟨0, ["(\\x.x)"], "(\\x.x)", "eval error: undefined variable: missing"⟩] :=
    ⟨_, _, rfl, rfl⟩
  obtain ⟨error_iff, -⟩ :=
    only_texts_end_judgements brokenLevel 2 "(\\z.missing)" .empty (by simp [failed])
  obtain ⟨-, fails_iff, -⟩ :=
    only_texts_end_judgements firstOnly 2 "(\\z.missing)" .empty (by simp [judged])
  refine ⟨⟨failed, (error_iff _).mp failed⟩, solution, report, judged, verdicts, ?_⟩
  intro text member cause fails
  obtain ⟨found, other⟩ := fails_iff.mpr ⟨text, member, cause, fails⟩
  rw [judged] at other
  cases other

end Level

end LambdaTutor
