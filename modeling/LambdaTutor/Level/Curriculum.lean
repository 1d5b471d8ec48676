import LambdaTutor.Level.Judge

/-!
# Playing a curriculum

Levels are judged in order. The value of a solution that passes becomes a builtin for the levels
after it; play stops at the first level without a solution, with a solution that has no value, or
with a failed test. `curriculum` is the list of levels that the game ships.
-/

namespace LambdaTutor

/-- How far a set of solutions gets through a list of levels. -/
inductive Progress where
  | completed
  | unattempted (index : Nat)
  | failed (index : Nat) (report : Report)
  | rejected (index : Nat) (message : String)
deriving DecidableEq, Repr

/-- Plays levels that are numbered from `index` on, given the builtins solved before them. -/
def playFrom (depth : Nat) (solutions : String → Option String) (index : Nat)
    (solved : Environment) : List Level → Outcome SourceError (Progress × Environment)
  | [] => .value (.completed, solved)
  | level :: rest =>
    match solutions level.builtinName with
    | none => .value (.unattempted index, solved)
    | some source =>
      match level.judge depth source solved with
      | .exhausted => .exhausted
      | .error cause =>
        if cause.isUserError then .value (.rejected index cause.message, solved)
        else .error cause
      | .value (solution, report) =>
        if report.passed then
          playFrom depth solutions (index + 1) (solved.extend level.builtinName solution) rest
        else .value (.failed index report, solved)

/-- Plays a list of levels from its start with no builtin solved. -/
def play (depth : Nat) (levels : List Level) (solutions : String → Option String) :
    Outcome SourceError (Progress × Environment) :=
  playFrom depth solutions 0 .empty levels

/-- The first level: the identity function. -/
def identityLevel : Level where
  title := "Identity, please?"
  description := "Write the identity function. " ++
    "The identity function takes one argument and produces it."
  tests := [⟨["(\\x.x)"], "(\\x.x)"⟩, ⟨["(\\y.y)"], "(\\y.y)"⟩]
  availableBuiltins := []
  builtinName := "identity"

/-- The second level: the Church numeral zero. -/
def zeroLevel : Level where
  title := "Level zero"
  description := "Write the function corresponding to the Church numeral zero. " ++
    "The zero function is a curried function taking two arguments, " ++
    "and it returns the second argument."
  tests := [⟨["(\\x.x)", "(\\y.y)"], "(\\y.y)"⟩]
  availableBuiltins := ["identity"]
  builtinName := "zero"

/-- The third level: the successor of a Church numeral. -/
def successorLevel : Level where
  title := "Level n + 1"
  description := "Write the function add1. " ++
    "The add1 function takes one argument, a Church numeral, " ++
    "and it produces the successor of that numeral."
  tests :=
    [⟨["zero"], "((\\n.(\\f.(\\x.(f ((n f) x))))) zero)"⟩,
     ⟨["((\\n.(\\f.(\\x.(f ((n f) x))))) zero)"],
      "((\\n.(\\f.(\\x.(f ((n f) x))))) ((\\n.(\\f.(\\x.(f ((n f) x))))) zero))"⟩]
  availableBuiltins := ["identity", "zero"]
  builtinName := "add1"

/-- The levels of the game, in order. -/
def curriculum : List Level :=
  [identityLevel, zeroLevel, successorLevel]

/-- The line that lists a level under its number. -/
def Level.listing (level : Level) (index : Nat) : String :=
  toString index ++ ": " ++ level.title ++ " (" ++ level.builtinName ++ ")"

/-- The levels of the game, one line each. -/
def listLevels : String :=
  "\n".intercalate (curriculum.zipIdx.map fun (level, index) => level.listing index)

end LambdaTutor
