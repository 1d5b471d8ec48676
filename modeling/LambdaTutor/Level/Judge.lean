import LambdaTutor.Closure.Equality
import LambdaTutor.Closure.Readback
import LambdaTutor.Level
import LambdaTutor.Source

/-!
# Judging a solution

A solution is evaluated once and then applied to the inputs of every test. A solution that goes
wrong only when it is applied fails the test; a text that has no value of its own, be it the
solution or a text of the level, ends the judgement with its error.
-/

namespace LambdaTutor

namespace Level

/-- The builtins that a level lets its texts refer to. -/
def scope (level : Level) (solved : Environment) : Environment :=
  solved.restrictTo level.availableBuiltins

/-- The verdict on a test that is not passed. The available builtins stay symbolic in the value
that was expected. -/
def failedTest (level : Level) (index : Nat) (test : LevelTest) (expected : Closure)
    (actual : String) : Verdict :=
  .failed ⟨index, test.inputs, expected.render level.availableBuiltins, actual⟩

/-- The verdict on a test, given the value that was expected and how applying the solution ended. -/
def verdict (level : Level) (index : Nat) (test : LevelTest) (expected : Closure) :
    Outcome EvalError Closure → Outcome SourceError Verdict
  | .value actual =>
    if actual == expected then .value .passed
    else .value (level.failedTest index test expected (actual.render level.availableBuiltins))
  | .error cause => .value (level.failedTest index test expected (SourceError.eval cause).message)
  | .exhausted => .exhausted

/-- The verdict on a solution's value for one test: the inputs are evaluated in order, then the
output, and then the solution is applied. -/
def judgeTest (level : Level) (depth : Nat) (scope : Environment) (solution : Closure)
    (test : LevelTest) (index : Nat) : Outcome SourceError Verdict := do
  let inputs ← test.inputs.mapM fun input => evaluate depth input scope
  let expected ← evaluate depth test.output scope
  level.verdict index test expected (solution.applyAll depth inputs)

/-- The value of a solution and the report on all tests of the level. -/
def judge (level : Level) (depth : Nat) (source : String) (solved : Environment) :
    Outcome SourceError (Closure × Report) := do
  let scope := level.scope solved
  let solution ← evaluate depth source scope
  let verdicts ← level.tests.zipIdx.mapM fun (test, index) =>
    level.judgeTest depth scope solution test index
  return (solution, ⟨level.builtinName, verdicts⟩)

end Level

end LambdaTutor
