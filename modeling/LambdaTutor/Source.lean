import LambdaTutor.Evaluation
import LambdaTutor.Term.Parser
import LambdaTutor.Token.Lexer

/-!
# Source text

Source text is lexed, parsed and evaluated. A `SourceError` says which of the three went wrong.
Parse and evaluation errors are the writer's to mend; a lexing fault would be the table's.
-/

namespace LambdaTutor

/-- The reasons for which source text has no value. -/
inductive SourceError where
  | parse (cause : ParseError)
  | eval (cause : EvalError)
  | internal (cause : LexError)
deriving DecidableEq, Repr

namespace SourceError

/-- The message of a source error. -/
def message : SourceError → String
  | parse cause => "parse error: " ++ cause.message
  | eval cause => "eval error: " ++ cause.message
  | internal cause => "internal error: " ++ cause.message

/-- Whether the writer of the source text can mend the error. -/
def isUserError : SourceError → Bool
  | parse _ | eval _ => true
  | internal _ => false

end SourceError

/-- The term that a source text spells out, however it is laid out. -/
def parse (text : String) : Except SourceError Term := do
  let tokens ← (lexSignificant text).mapError .internal
  (parseTokens tokens).mapError .parse

/-- The value of a source text in an environment. -/
def evaluate (depth : Nat) (text : String) (env : Environment) : Outcome SourceError Closure := do
  let term ← Outcome.ofExcept (parse text)
  (term.eval depth env).mapError .eval

/-- Extends an environment by definitions, each evaluated with the ones before it in scope. The
first definition without a value ends the extension. -/
def define (depth : Nat) (env : Environment) (definitions : List (String × String)) :
    Outcome SourceError Environment :=
  definitions.foldlM (fun env (name, text) => do return env.extend name (← evaluate depth text env))
    env

end LambdaTutor
