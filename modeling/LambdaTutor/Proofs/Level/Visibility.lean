import LambdaTutor.Proofs.Closure.Rendering
import LambdaTutor.Proofs.Closure.Stripping
import LambdaTutor.Proofs.Evaluation.Relevance
import LambdaTutor.Proofs.Level.Program

/-!
# What a failed test shows

A test is decided by equality of closures, which compares all that they captured, and is shown by
reading them back, which follows free names and leaves the available builtins alone. So a test can
fail without a difference to see: `failed_test_shows_no_difference` is a solution of the first level
whose report says that one text was expected and that the same text was found. The texts of a
failure differ whenever the application failed, because no closure is rendered as a message. When it
had a value, they differ exactly when the two closures are read back as different terms.
-/

namespace LambdaTutor

/-- Terms that can be written have different texts when they are different. -/
theorem Term.Writable.print_inj {term other : Term} (writable : term.Writable)
    (otherWritable : other.Writable) : term.print = other.print ↔ term = other := by
  constructor
  · intro same
    have parsed := Term.parse_print writable
    rw [same, Term.parse_print otherWritable] at parsed
    cases parsed
    rfl
  · rintro rfl
    rfl

namespace Closure

/-- A closure is rendered as a text that starts with a parenthesis. -/
theorem head?_render (closure : Closure) (symbolic : List String) :
    (closure.render symbolic).toList.head? = some '(' := by
  obtain ⟨param, body, env⟩ := closure
  simp [render, readback, Term.print]

/-- No closure is rendered as the message of a failed run. -/
theorem render_ne_message (closure : Closure) (symbolic : List String) (cause : EvalError) :
    closure.render symbolic ≠ (SourceError.eval cause).message := by
  have message : (SourceError.eval cause).message = "eval error: " ++ cause.message := rfl
  intro same
  have heads := closure.head?_render symbolic
  rw [same, message, String.toList_append] at heads
  cases heads

/-- Closures of code that can be written are rendered as the same text exactly when they are read back
as the same term. -/
theorem CodeWithin.render_inj {closure other : Closure}
    (within : closure.CodeWithin Term.Writable) (otherWithin : other.CodeWithin Term.Writable)
    (symbolic : List String) :
    closure.render symbolic = other.render symbolic ↔
      closure.readback symbolic = other.readback symbolic :=
  (within.writable_readback symbolic).print_inj (otherWithin.writable_readback symbolic)

/-- Closures that are alike once the symbolic names are forgotten are rendered as the same text. -/
theorem render_eq_of_alike_strip {symbolic : List String} {closure other : Closure}
    (alike : (closure.strip symbolic).Alike (other.strip symbolic)) :
    closure.render symbolic = other.render symbolic := by
  have read := (closure.strip symbolic).readback_eq_of_alike [] _ alike
  rw [readback_strip, readback_strip, List.append_nil] at read
  rw [render, render, read]

end Closure

/-- What a source text settles with is made of code that can be written, in an environment that holds
no other code. -/
theorem Settles.codeWithin_writable {text : String} {env : Environment} {closure : Closure}
    (settles : Settles text env (.value closure)) (within : env.CodeWithin Term.Writable) :
    closure.CodeWithin Term.Writable := by
  obtain ⟨-, depth, run⟩ := settles
  exact codeWithin_writable_of_evaluate within run

/-- Keeping some bindings keeps the code within what is allowed. -/
theorem Environment.CodeWithin.restrictTo {allowed : Term → Prop} {env : Environment}
    (within : env.CodeWithin allowed) (names : List String) :
    (env.restrictTo names).CodeWithin allowed := by
  rintro target ⟨name, value, bound, reaches⟩
  rw [get?_restrictTo] at bound
  split at bound
  · exact within target ⟨name, value, bound, reaches⟩
  · cases bound

namespace Level

variable {level : Level} {index : Nat} {test : LevelTest} {expected : Closure}
  {failure : TestFailure}

/-- A failed verdict shows the expected closure beside the message of a failed application, or beside
a closure that is not equal to the expected one. -/
theorem cases_of_verdict_failed {ending : Outcome EvalError Closure}
    (given : level.verdict index test expected ending = .value (.failed failure)) :
    (∃ cause, ending = .error cause ∧ failure = ⟨index, test.inputs,
      expected.render level.availableBuiltins, (SourceError.eval cause).message⟩) ∨
    ∃ actual, ending = .value actual ∧ (actual == expected) = false ∧ failure = ⟨index, test.inputs,
      expected.render level.availableBuiltins, actual.render level.availableBuiltins⟩ := by
  cases ending with
  | value actual =>
    cases equal : actual == expected with
    | true => simp [Level.verdict, equal] at given
    | false =>
      simp only [Level.verdict, equal, Bool.false_eq_true, if_false, failedTest] at given
      cases given
      exact .inr ⟨actual, rfl, equal, rfl⟩
  | error cause =>
    cases given
    exact .inl ⟨cause, rfl, rfl⟩
  | exhausted => cases given

/-- A test can fail without a difference to see. The first test of the first level expects the text
that the solution returns. But the closure that it returns has captured the argument, which the
expected one has not, so the two are not equal. -/
theorem failed_test_shows_no_difference :
    ∃ solution report, identityLevel.judge 2 "(\\z.(\\x.x))" .empty = .value (solution, report) ∧
      ∃ failure, .failed failure ∈ report.verdicts ∧ failure.expected = failure.actual := by
  let report : Report := ⟨"identity", [.failed ⟨0, ["(\\x.x)"], "(\\x.x)", "(\\x.x)"⟩,
    .failed ⟨1, ["(\\y.y)"], "(\\y.y)", "(\\x.x)"⟩]⟩
  have judged : identityLevel.judge 2 "(\\z.(\\x.x))" .empty =
      .value (.mk "z" (.lam "x" (.var "x")) .empty, report) :=
    judge_eq_value_iff.mpr ⟨rfl, rfl, .cons rfl (.cons rfl .nil)⟩
  exact ⟨_, report, judged, _, List.mem_cons_self, rfl⟩

/-- A failed test shows a difference exactly where rendering shows one. The texts of a failure differ
when the application of the solution failed. When it had a value, the value does not equal the
expected one, and still both texts are the same if the two closures have one abstraction and agree,
here and in the closures found there, on its free names other than the available builtins. Where the
solved builtins are made of code that can be written, as is all that comes from source text, the
texts are the same exactly when the application had a value that is read back, with the available
builtins symbolic, as the same term as the expected one. -/
theorem failures_differ_as_rendered {depth : Nat} {source : String} {solved : Environment}
    {solution : Closure} {report : Report}
    (judged : level.judge depth source solved = .value (solution, report)) (index : Nat)
    (failure : TestFailure) (failed : report.verdicts[index]? = some (.failed failure)) :
    ∃ test args expected, level.tests[index]? = some test ∧
      List.Forall₂ (fun input arg => Settles input (level.scope solved) (.value arg))
        test.inputs args ∧
      Settles test.output (level.scope solved) (.value expected) ∧
      (∀ cause, solution.applyAll depth args = .error cause →
        failure.expected ≠ failure.actual) ∧
      (∀ actual, solution.applyAll depth args = .value actual →
        (actual == expected) = false ∧
        ((actual.strip level.availableBuiltins).Alike (expected.strip level.availableBuiltins) →
          failure.expected = failure.actual)) ∧
      (solved.CodeWithin Term.Writable →
        (failure.expected = failure.actual ↔
          ∃ actual, solution.applyAll depth args = .value actual ∧
            actual.readback level.availableBuiltins =
              expected.readback level.availableBuiltins)) := by
  obtain ⟨inside, -⟩ := List.getElem?_eq_some_iff.mp failed
  rw [(verdicts_of_judge judged).1] at inside
  obtain ⟨test, tested⟩ : ∃ test, level.tests[index]? = some test :=
    ⟨_, List.getElem?_eq_getElem inside⟩
  obtain ⟨args, expected, verdict, inputs, output, reported, given⟩ :=
    exists_verdict_of_judge judged tested
  obtain rfl : .failed failure = verdict := Option.some.inj (failed.symm.trans reported)
  refine ⟨test, args, expected, tested, inputs, output, ?_⟩
  rcases cases_of_verdict_failed given with ⟨cause, ended, rfl⟩ | ⟨actual, ended, unequal, rfl⟩
  · have differ := expected.render_ne_message level.availableBuiltins cause
    rw [ended]
    refine ⟨fun _ _ => differ, nofun, fun _ => ⟨fun same => absurd same differ, nofun⟩⟩
  · rw [ended]
    refine ⟨nofun, ?_, fun within => ?_⟩
    · rintro _ ⟨⟩
      exact ⟨unequal, fun alike => (Closure.render_eq_of_alike_strip alike).symm⟩
    · -- The value of the application is that of a program in the scope, so its code can be written.
      have applicationEnds : solution.applyAll depth args ≠ .exhausted := by simp [ended]
      have program := settles_applyTexts inputs (settles_of_judge judged) applicationEnds
      rw [ended] at program
      have scopeWithin : (level.scope solved).CodeWithin Term.Writable := within.restrictTo _
      have expectedWithin := output.codeWithin_writable scopeWithin
      have actualWithin := program.codeWithin_writable scopeWithin
      rw [expectedWithin.render_inj actualWithin]
      constructor
      · intro same
        exact ⟨actual, rfl, same.symm⟩
      · rintro ⟨_, ⟨⟩, same⟩
        exact same.symm

/-- The builtins of a player who has solved the first level. -/
def firstSolved : Environment :=
  .extend .empty "identity" (.mk "x" (.var "x") .empty)

/-- The solution of the second level returns a closure that differs from the expected one in two
bindings nobody mentions: the texts are the same, and so are the terms. -/
theorem failures_differ_as_rendered_unmentioned :
    ∃ solution report failure,
      zeroLevel.judge 3 "(\\a.(\\b.(\\y.y)))" firstSolved = .value (solution, report) ∧
      report.verdicts[0]? = some (.failed failure) ∧ failure.expected = failure.actual ∧
      ∃ args expected actual, Settles "(\\y.y)" (zeroLevel.scope firstSolved) (.value expected) ∧
        solution.applyAll 3 args = .value actual ∧ (actual == expected) = false ∧
        actual.readback ["identity"] = expected.readback ["identity"] := by
  have within : firstSolved.CodeWithin Term.Writable := by
    rintro target ⟨name, value, bound, reaches⟩
    rcases Environment.get?_extend_eq_some_iff.mp bound with ⟨-, rfl⟩ | ⟨-, bound⟩
    · have evaluated : evaluate 1 "(\\x.x)" .empty = .value (.mk "x" (.var "x") .empty) := rfl
      exact (Closure.FromSource.evaluated (by simp) evaluated).codeWithin_writable target reaches
    · cases bound
  let report : Report :=
    ⟨"zero", [.failed ⟨0, ["(\\x.x)", "(\\y.y)"], "(\\y.y)", "(\\y.y)"⟩]⟩
  have judged : zeroLevel.judge 3 "(\\a.(\\b.(\\y.y)))" firstSolved =
      .value (.mk "a" (.lam "b" (.lam "y" (.var "y"))) firstSolved, report) :=
    judge_eq_value_iff.mpr ⟨rfl, rfl, .cons rfl .nil⟩
  obtain ⟨test, args, expected, tested, -, output, -, values, same_iff⟩ :=
    failures_differ_as_rendered judged 0 _ rfl
  cases tested
  obtain ⟨actual, ended, read⟩ := (same_iff within).mp rfl
  exact ⟨_, report, _, judged, rfl, rfl, args, expected, actual, output, ended,
    (values actual ended).1, read⟩

end Level

end LambdaTutor
