import LambdaTutor.Text.WhiteSpace
import LambdaTutor.Token.Lexer

/-!
# Texts that fit their class

What the text of a token may be, stated for each class without the lexer: a symbol is its one
character, and the other two classes are non-empty runs of their characters.
-/

namespace LambdaTutor

/-- A character that may stand in an identifier. -/
def isNameCharacter (c : Char) : Bool :=
  !isWhiteSpace c && !isSymbol c

/-- A text that can be written as an identifier. -/
def IsName (text : String) : Prop :=
  text ≠ "" ∧ ∀ c ∈ text.toList, isNameCharacter c = true

/-- The text of the token is one that its class allows. -/
def Token.Fits (token : Token) : Prop :=
  match token.tokenClass with
  | .leftParen => token.text = "("
  | .rightParen => token.text = ")"
  | .lambda => token.text = "\\"
  | .dot => token.text = "."
  | .identifier => IsName token.text
  | .whitespace => token.text ≠ "" ∧ ∀ c ∈ token.text.toList, isWhiteSpace c = true

/-- The texts of the tokens, one after the other. -/
def concatTexts (tokens : List Token) : String :=
  String.join (tokens.map Token.text)

/-- No two neighbours could be one token of a class that forms runs. -/
def Separated : List Token → Prop
  | first :: second :: rest =>
    ¬(first.tokenClass = second.tokenClass ∧ first.tokenClass.isRun = true) ∧
      Separated (second :: rest)
  | _ => True

end LambdaTutor
