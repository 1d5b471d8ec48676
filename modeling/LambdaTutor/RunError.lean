import LambdaTutor.FileView
import LambdaTutor.Source

/-!
# Errors of a run

What can end a run of the program: a directory of solutions that is none, input that cannot be
read, or source text without a value.
-/

namespace LambdaTutor

/-- The reasons for which a run ends without a result. -/
inductive RunError where
  | notADirectory (path : String)
  | inputFile (fault : FileFault)
  | source (cause : SourceError)
deriving DecidableEq, Repr

/-- The message of a run error. The message of a source error is not changed. -/
def RunError.message : RunError → String
  | .notADirectory path => "Interpreter configuration error: " ++ path ++ " is not a directory"
  | .inputFile fault => "Input file error: " ++ fault.message
  | .source cause => cause.message

end LambdaTutor
