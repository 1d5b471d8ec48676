/-!
# Tokens

A token is a piece of source text together with its class. Lexing gives tokens whose text fits
their class; the parser reads the classes and takes names from the texts, whatever they hold.
-/

namespace LambdaTutor

/-- The classes of tokens. -/
inductive TokenClass where
  | leftParen
  | rightParen
  | lambda
  | dot
  | identifier
  | whitespace
deriving DecidableEq, Repr

/-- A piece of source text with its class. -/
structure Token where
  tokenClass : TokenClass
  text : String
deriving DecidableEq, Repr

/-- Whether neighbouring characters of the class belong to one token. The symbols stand alone. -/
def TokenClass.isRun : TokenClass → Bool
  | .identifier | .whitespace => true
  | .leftParen | .rightParen | .lambda | .dot => false

/-- Whether the token separates others and carries nothing for the parser. -/
def Token.isWhitespace (token : Token) : Bool :=
  token.tokenClass == .whitespace

end LambdaTutor
