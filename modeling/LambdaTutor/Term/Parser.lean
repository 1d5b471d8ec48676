import LambdaTutor.Term
import LambdaTutor.Token

/-!
# Parsing

The grammar has three productions:

    expression  →  identifier
                |  '(' '\' identifier '.' expression ')'
                |  '(' expression expression ')'

The parser reads tokens from left to right and keeps what it has read as a `ParseState`: what is
due next, and the stack of abstractions and applications that are still open. Each state knows
which token classes it accepts, so an error names the first token that cannot be right.
-/

namespace LambdaTutor

/-- What the grammar requires at a position. -/
inductive Expectation where
  | expression
  | identifier
  | dot
  | rightParen
  | endOfInput
deriving DecidableEq, Repr

/-- The words for an expectation. -/
def Expectation.description : Expectation → String
  | .expression => "identifier or '('"
  | .identifier => "identifier"
  | .dot => "'.'"
  | .rightParen => "')'"
  | .endOfInput => "end-of-input"

/-- The first position at which a token list departs from the grammar. -/
inductive ParseError where
  | unexpectedToken (expected : Expectation) (found : String)
  | unexpectedEndOfInput (expected : Expectation)
deriving DecidableEq, Repr

/-- The message of a parse error. -/
def ParseError.message : ParseError → String
  | .unexpectedToken expected found => "expected " ++ expected.description ++ ", got '" ++ found ++ "'"
  | .unexpectedEndOfInput expected => "expected " ++ expected.description ++ ", got end-of-input"

/-- An abstraction or application that waits for the expression being read. -/
inductive Frame where
  /-- The expression is the body of an abstraction. -/
  | body (param : String)
  /-- The expression is the function of an application. -/
  | fn
  /-- The expression is the argument of an application. -/
  | arg (fn : Term)
deriving DecidableEq, Repr

/-- What has been read of a token list. -/
inductive ParseState where
  /-- An expression is due. -/
  | expression (stack : List Frame)
  /-- A left parenthesis was read; the next token decides between the two productions. -/
  | opened (stack : List Frame)
  /-- The parameter of an abstraction is due. -/
  | param (stack : List Frame)
  /-- The dot after a parameter is due. -/
  | dot (param : String) (stack : List Frame)
  /-- The right parenthesis that completes a term is due. -/
  | close (term : Term) (stack : List Frame)
  /-- A whole expression was read. -/
  | finished (term : Term)
deriving DecidableEq, Repr

namespace ParseState

/-- Hands a complete term to the innermost open frame. -/
def deliver (term : Term) : List Frame → ParseState
  | [] => finished term
  | .body name :: stack => close (.lam name term) stack
  | .fn :: stack => expression (.arg term :: stack)
  | .arg fn :: stack => close (.app fn term) stack

/-- What is due next. Directly after a left parenthesis a lambda is possible too. -/
def expectation : ParseState → Expectation
  | expression _ | opened _ => .expression
  | param _ => .identifier
  | dot _ _ => .dot
  | close _ _ => .rightParen
  | finished _ => .endOfInput

/-- The state after one more token, if the token may stand here. -/
def advance? : ParseState → Token → Option ParseState
  | expression stack, ⟨.identifier, text⟩ => some (deliver (.var text) stack)
  | expression stack, ⟨.leftParen, _⟩ => some (opened stack)
  | opened stack, ⟨.lambda, _⟩ => some (param stack)
  | opened stack, ⟨.identifier, text⟩ => some (deliver (.var text) (.fn :: stack))
  | opened stack, ⟨.leftParen, _⟩ => some (opened (.fn :: stack))
  | param stack, ⟨.identifier, text⟩ => some (dot text stack)
  | dot name stack, ⟨.dot, _⟩ => some (expression (.body name :: stack))
  | close term stack, ⟨.rightParen, _⟩ => some (deliver term stack)
  | _, _ => none

/-- Reads one token or reports it as the first that cannot be right. -/
def step (state : ParseState) (token : Token) : Except ParseError ParseState :=
  match state.advance? token with
  | some next => .ok next
  | none => .error (.unexpectedToken state.expectation token.text)

/-- The term that was read, once nothing more is due. -/
def result : ParseState → Except ParseError Term
  | finished term => .ok term
  | state => .error (.unexpectedEndOfInput state.expectation)

end ParseState

/-- The one expression that a token list spells out. -/
def parseTokens (tokens : List Token) : Except ParseError Term := do
  (← tokens.foldlM ParseState.step (.expression [])).result

end LambdaTutor
