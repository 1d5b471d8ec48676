import LambdaTutor.Command
import LambdaTutor.Level.Curriculum
import LambdaTutor.Transcript

/-!
# Runs of the program

A run executes one command against the files it can see and the bytes of its standard input. It
writes output on the way, which only a session does, and ends with a result that is shown last.
-/

namespace LambdaTutor

/-- The value of the source file at a path, as text. -/
def runFile (depth : Nat) (view : FileView) (path : String) : Outcome RunError String := do
  let text ← (Outcome.ofExcept (view.readText path)).mapError .inputFile
  let closure ← (evaluate depth text .empty).mapError .source
  return closure.display

/-- The name of the file that holds the solution of a level. -/
def Level.solutionFile (level : Level) : String :=
  level.builtinName ++ ".lc"

/-- The solutions that a directory holds for a list of levels, by builtin name. A level without a
file has no solution; a file that cannot be read ends the search. -/
def readSolutions (view : FileView) (directory : String) :
    List Level → Except FileFault (List (String × String))
  | [] => .ok []
  | level :: rest => do
    let path := joinPath directory level.solutionFile
    if view.isFile path then
      let text ← view.readText path
      return (level.builtinName, text) :: (← readSolutions view directory rest)
    else readSolutions view directory rest

/-- The title under which a summary speaks of a level. -/
def Level.heading (level : Level) (index : Nat) : String :=
  "Level " ++ toString index ++ " (" ++ level.title ++ ")"

/-- The words for the level with a number; there are none for a number that no level has. -/
def describeAt (levels : List Level) (index : Nat) (describe : Level → String) : String :=
  (levels[index]?).elim "" describe

/-- The words for the progress through a list of levels. -/
def Progress.summary (levels : List Level) : Progress → String
  | .completed => "All " ++ toString levels.length ++ " levels solved."
  | .unattempted index =>
    describeAt levels index fun level =>
      level.heading index ++ " has no solution yet: write " ++ level.solutionFile ++ "."
  | .rejected index message =>
    describeAt levels index fun level => level.heading index ++ " rejected: " ++ message
  | .failed index report =>
    describeAt levels index fun level =>
      "\n".intercalate ((level.heading index ++ " failed:") :: report.failures.map (·.message))

/-- Judges the solutions in a directory and says how far they get through the curriculum. -/
def runPlay (depth : Nat) (view : FileView) (directory : String) : Outcome RunError String := do
  if view.isDirectory directory then
    let solutions ←
      (Outcome.ofExcept (readSolutions view directory curriculum)).mapError .inputFile
    let (progress, _) ← (play depth curriculum fun name => solutions.lookup name).mapError .source
    return progress.summary curriculum
  else .error (.notADirectory directory)

/-- What a run wrote on the way and what it ended with. -/
structure RunResult where
  output : String
  result : Outcome RunError String
deriving DecidableEq

/-- Executes a command. -/
def Command.execute (depth : Nat) (view : FileView) (input : List UInt8) : Command → RunResult
  | .run path => ⟨"", runFile depth view path⟩
  | .repl =>
    let transcript := Transcript.ofInput depth input
    ⟨transcript.output, transcript.ending.bind fun () => .value ""⟩
  | .levels => ⟨"", .value listLevels⟩
  | .play directory => ⟨"", runPlay depth view directory⟩

/-- The paths that a command may look at. -/
def Command.paths : Command → List String
  | .run path => [path]
  | .play directory =>
    directory :: curriculum.map fun level => joinPath directory level.solutionFile
  | .repl | .levels => []

/-- The text that a run ends with: its result or the message of its error, on a line of its own. A
result without text shows nothing. -/
def lastLine : Outcome RunError String → String
  | .value text => if text = "" then "" else text ++ "\n"
  | .error cause => cause.message ++ "\n"
  | .exhausted => ""

/-- The name and the version of the program. -/
def version : String := "lambda-game 0.1.0"

/-- What the program leaves behind: its exit code and all that it wrote to the standard output. -/
structure Exit where
  code : Nat
  output : String
deriving DecidableEq, Repr

/-- How the program exits when its arguments give no command. -/
def Refusal.exit : Refusal → Exit
  | .versionRequested => ⟨0, version ++ "\n"⟩
  | .helpRequested => ⟨0, "usage: run -s FILE | repl | levels | play -d DIRECTORY\n"⟩
  | _ => ⟨2, ""⟩

/-- Runs the program on its arguments. A run that ends with an error has still done its job. -/
def runProgram (depth : Nat) (view : FileView) (input : List UInt8) (args : List String) : Exit :=
  match Command.ofArguments args with
  | .error refusal => refusal.exit
  | .ok command =>
    let run := command.execute depth view input
    ⟨0, run.output ++ lastLine run.result⟩

end LambdaTutor
