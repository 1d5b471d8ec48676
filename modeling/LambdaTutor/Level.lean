/-!
# Levels

A level asks for one builtin and says by tests what the builtin must do. All texts of a level are
evaluated with the builtins that the level makes available and with nothing else.
-/

namespace LambdaTutor

/-- The solution applied to the inputs, from left to right, must equal the output. -/
structure LevelTest where
  inputs : List String
  output : String
deriving DecidableEq, Repr

/-- One exercise of a curriculum. -/
structure Level where
  title : String
  description : String
  tests : List LevelTest
  availableBuiltins : List String
  builtinName : String
deriving DecidableEq, Repr

/-- A test that a solution does not pass, as it is shown to the player. -/
structure TestFailure where
  testIndex : Nat
  inputs : List String
  expected : String
  actual : String
deriving DecidableEq, Repr

/-- The line that reports a failed test. -/
def TestFailure.message (failure : TestFailure) : String :=
  "test " ++ toString failure.testIndex ++ ": inputs [" ++ ", ".intercalate failure.inputs ++
    "]: expected " ++ failure.expected ++ ", got " ++ failure.actual

/-- The result of one test. -/
inductive Verdict where
  | passed
  | failed (failure : TestFailure)
deriving DecidableEq, Repr

/-- The failure of a test that was not passed. -/
def Verdict.failure? : Verdict → Option TestFailure
  | .passed => none
  | .failed failure => some failure

/-- The verdicts on all tests of a level, in the order of the tests. -/
structure Report where
  builtinName : String
  verdicts : List Verdict
deriving DecidableEq, Repr

/-- Whether every test was passed. -/
def Report.passed (report : Report) : Bool :=
  report.verdicts.all (· = .passed)

/-- The failed tests, in order. -/
def Report.failures (report : Report) : List TestFailure :=
  report.verdicts.filterMap Verdict.failure?

end LambdaTutor
