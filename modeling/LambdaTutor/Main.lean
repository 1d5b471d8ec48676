import LambdaTutor.Run

/-!
# The program

The outer layer: it looks at the paths of a command, reads the standard input and prints. What a
run does is decided by `runProgram` and, line by line, by `Transcript.ofLine`.
-/

namespace LambdaTutor

/-- The number of an error of the operating system, which may come with a minus sign. -/
def errorNumber (code : UInt32) : UInt32 :=
  min code (-code)

/-- The fault behind an error of the operating system. -/
def FileFault.ofError (error : IO.Error) : FileFault :=
  match error with
  | .noFileOrDirectory _ _ _ => .notFound
  | .inappropriateType _ code _ =>
    if errorNumber code = 21 then .isADirectory else .notADirectory
  | .invalidArgument _ code _ =>
    if errorNumber code = 36 then .nameTooLong else .other (toString error)
  | _ => .other (toString error)

/-- Looks at a path on the disk. -/
def probe (path : String) : IO (String × Except FileFault FileNode) := do
  try
    let bytes ← IO.FS.readBinFile path
    return (path, .ok (.file bytes.toList))
  catch error =>
    match FileFault.ofError error with
    | .isADirectory => return (path, .ok .directory)
    | fault => return (path, .error fault)

/-- The view of the paths that a command may look at. -/
def viewFor (command : Command) : IO FileView := do
  let probes ← command.paths.mapM probe
  return fun path => (probes.lookup path).getD (.error .notFound)

/-- The bytes of the next line with its ending; none are left at the end of the input. -/
partial def readLine (input : IO.FS.Stream) (line : List UInt8) : IO (List UInt8) := do
  match (← input.read 1).toList with
  | [] => return line.reverse
  | byte :: _ =>
    if byte = lineFeed then return (byte :: line).reverse
    else readLine input (byte :: line)

/-- Answers the lines of the standard input as they come. -/
partial def serve (input output : IO.FS.Stream) : IO (Outcome RunError Unit) := do
  let line ← readLine input []
  if line.isEmpty then return .value ()
  let transcript := Transcript.ofInput ampleDepth line
  output.putStr transcript.output
  output.flush
  match transcript.ending with
  | .value () => serve input output
  | ending => return ending

/-- Executes a command that was read from the arguments. -/
def perform (command : Command) (args : List String) : IO Exit := do
  match command with
  | .repl =>
    let ending ← serve (← IO.getStdin) (← IO.getStdout)
    return ⟨0, lastLine (ending.bind fun () => .value "")⟩
  | _ => return runProgram ampleDepth (← viewFor command) [] args

end LambdaTutor

/-- Reads the arguments, executes the command and exits as it says. -/
def main (args : List String) : IO UInt32 := do
  let exit ← match LambdaTutor.Command.ofArguments args with
    | .ok command => LambdaTutor.perform command args
    | .error refusal => pure refusal.exit
  IO.print exit.output
  return exit.code.toUInt32
