import LambdaTutor.Text.WhiteSpace
import LambdaTutor.Token

/-!
# Lexing

A rule table assigns a class to a character: the first rule that accepts the character decides.
Lexing cuts a text into the longest pieces of one class and keeps every character; a symbol is
always a piece of its own. A character that no rule accepts stops the lexer at its byte offset.
The table `tokenRules` accepts every character, so `lex` never stops.
-/

namespace LambdaTutor

/-- Assigns a class to the characters it accepts. -/
structure TokenRule where
  tokenClass : TokenClass
  accepts : Char → Bool

/-- The four symbols of the language. -/
def isSymbol (c : Char) : Bool :=
  c == '(' || c == ')' || c == '\\' || c == '.'

/-- The rules of the language in order of priority. -/
def tokenRules : List TokenRule :=
  [⟨.whitespace, isWhiteSpace⟩,
   ⟨.leftParen, (· == '(')⟩,
   ⟨.rightParen, (· == ')')⟩,
   ⟨.lambda, (· == '\\')⟩,
   ⟨.dot, (· == '.')⟩,
   ⟨.identifier, fun c => !(isSymbol c || isWhiteSpace c)⟩]

/-- The class of a character: that of the first rule that accepts it. -/
def classify? (rules : List TokenRule) (c : Char) : Option TokenClass :=
  (rules.find? fun rule => rule.accepts c).map TokenRule.tokenClass

/-- The fault of a rule table that leaves a character without a class. -/
inductive LexError where
  | noMatchingRule (offset : Nat)
deriving DecidableEq, Repr

/-- The message of a lexing fault. -/
def LexError.message : LexError → String
  | .noMatchingRule offset => s!"no token rule matches the input at byte offset {offset}"

/-- Puts a character in front of a token list. It joins the first token when both are of one
class that forms runs, and is a token of its own otherwise. -/
def attach (tokenClass : TokenClass) (c : Char) : List Token → List Token
  | [] => [⟨tokenClass, c.toString⟩]
  | token :: rest =>
    if tokenClass = token.tokenClass ∧ tokenClass.isRun then
      ⟨tokenClass, c.toString ++ token.text⟩ :: rest
    else ⟨tokenClass, c.toString⟩ :: token :: rest

/-- The tokens of a character list that starts at a byte offset of the text. -/
def lexFrom (rules : List TokenRule) (offset : Nat) : List Char → Except LexError (List Token)
  | [] => .ok []
  | c :: rest =>
    match classify? rules c with
    | none => .error (.noMatchingRule offset)
    | some tokenClass => (lexFrom rules (offset + c.utf8Size) rest).map (attach tokenClass c)

/-- All tokens of a text, in order. -/
def lex (text : String) : Except LexError (List Token) :=
  lexFrom tokenRules 0 text.toList

/-- The tokens of a text that are not white space, in order. -/
def lexSignificant (text : String) : Except LexError (List Token) :=
  (lex text).map (List.filter fun token => !token.isWhitespace)

/-- The table leaves no character without a class. -/
theorem classify?_tokenRules_isSome (c : Char) : (classify? tokenRules c).isSome = true := by
  simp only [classify?, Option.isSome_map, List.find?_isSome, tokenRules, isSymbol]
  cases white : isWhiteSpace c <;> simp [white]
  grind

/-- The table lexes every character list. -/
theorem exists_lexFrom_tokenRules_eq_ok (offset : Nat) (characters : List Char) :
    ∃ tokens, lexFrom tokenRules offset characters = .ok tokens := by
  induction characters generalizing offset with
  | nil => exact ⟨[], rfl⟩
  | cons c rest ih =>
    obtain ⟨tokenClass, found⟩ := Option.isSome_iff_exists.mp (classify?_tokenRules_isSome c)
    obtain ⟨tokens, lexed⟩ := ih (offset + c.utf8Size)
    exact ⟨attach tokenClass c tokens, by simp [lexFrom, found, lexed, Except.map]⟩

end LambdaTutor
