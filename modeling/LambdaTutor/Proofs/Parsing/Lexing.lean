import LambdaTutor.Token.Fit

/-!
# The laws of lexing

Three laws relate a text to its tokens: the texts of the tokens make up the text, every text fits
its class, and no two neighbours could be one token. `lex_eq_ok_iff` says that the lexer obeys the
laws and that the laws leave it no choice. A token fits when the rule table assigns its class to
each of its characters (`Token.fits_iff`), so everything else is stated for all classes at once.
-/

namespace LambdaTutor

/-- The class of every character, read off the rule table. -/
theorem classify?_tokenRules (c : Char) :
    classify? tokenRules c = some (
      if isWhiteSpace c then .whitespace
      else if c = '(' then .leftParen
      else if c = ')' then .rightParen
      else if c = '\\' then .lambda
      else if c = '.' then .dot
      else .identifier) := by
  simp only [classify?, tokenRules, List.find?_cons, isSymbol]
  grind

/-- The one character of a class that stands for a symbol. -/
def TokenClass.symbol? : TokenClass → Option Char
  | .leftParen => some '('
  | .rightParen => some ')'
  | .lambda => some '\\'
  | .dot => some '.'
  | .identifier | .whitespace => none

/-- The classes that form runs are those that stand for no symbol. -/
theorem TokenClass.isRun_eq (tokenClass : TokenClass) :
    tokenClass.isRun = tokenClass.symbol?.isNone := by
  cases tokenClass <;> rfl

/-- The table assigns the class of a symbol to that symbol alone. -/
theorem classify?_eq_symbol_iff {tokenClass : TokenClass} {symbol c : Char}
    (stands : tokenClass.symbol? = some symbol) :
    classify? tokenRules c = some tokenClass ↔ c = symbol := by
  have visible : isWhiteSpace symbol = false := by cases tokenClass <;> cases stands <;> decide
  rw [classify?_tokenRules]
  cases tokenClass <;> cases stands <;> grind

theorem classify?_eq_whitespace_iff {c : Char} :
    classify? tokenRules c = some .whitespace ↔ isWhiteSpace c = true := by
  rw [classify?_tokenRules]
  grind

theorem classify?_eq_identifier_iff {c : Char} :
    classify? tokenRules c = some .identifier ↔ isNameCharacter c = true := by
  rw [classify?_tokenRules]
  simp only [isNameCharacter, isSymbol]
  grind

namespace Token

variable {token : Token}

/-- A token of a symbol's class fits when its text is the symbol. -/
theorem fits_iff_of_symbol {symbol : Char} (stands : token.tokenClass.symbol? = some symbol) :
    token.Fits ↔ token.text.toList = [symbol] := by
  obtain ⟨tokenClass, text⟩ := token
  cases tokenClass <;> cases stands <;> exact String.toList_inj.symm

/-- A token of a class that forms runs fits when its text is a run of the class. -/
theorem fits_iff_of_isRun (run : token.tokenClass.isRun = true) :
    token.Fits ↔ token.text.toList ≠ [] ∧
      ∀ c ∈ token.text.toList, classify? tokenRules c = some token.tokenClass := by
  obtain ⟨tokenClass, text⟩ := token
  cases tokenClass with
  | identifier => simp [Fits, IsName, classify?_eq_identifier_iff]
  | whitespace => simp [Fits, classify?_eq_whitespace_iff]
  | _ => cases run

/-- A token fits when its text is not empty and the table assigns its class to each character; a
symbol is one character only. -/
theorem fits_iff :
    token.Fits ↔ token.text.toList ≠ [] ∧
      (∀ c ∈ token.text.toList, classify? tokenRules c = some token.tokenClass) ∧
      (token.tokenClass.isRun = true ∨ token.text.toList.length = 1) := by
  cases stands : token.tokenClass.symbol? with
  | none =>
    have run : token.tokenClass.isRun = true := by simp [TokenClass.isRun_eq, stands]
    simp [fits_iff_of_isRun run, run]
  | some symbol =>
    have single : token.tokenClass.isRun = false := by simp [TokenClass.isRun_eq, stands]
    rw [fits_iff_of_symbol stands, ← List.replicate_one, List.eq_replicate_iff]
    simp only [classify?_eq_symbol_iff stands, single, Bool.false_eq_true, false_or]
    constructor
    · rintro ⟨length, all⟩
      exact ⟨List.ne_nil_of_length_pos (by omega), all, length⟩
    · rintro ⟨-, all, length⟩
      exact ⟨length, all⟩

/-- A single blank is white space. -/
theorem fits_blank : Token.Fits ⟨.whitespace, " "⟩ := by
  have white : isWhiteSpace ' ' = true := by decide
  exact ⟨by simp, by simpa using white⟩

end Token

@[simp] theorem concatTexts_nil : concatTexts [] = "" := rfl

theorem concatTexts_cons (token : Token) (rest : List Token) :
    concatTexts (token :: rest) = token.text ++ concatTexts rest := by
  simp [concatTexts]

theorem concatTexts_append (first second : List Token) :
    concatTexts (first ++ second) = concatTexts first ++ concatTexts second := by
  simp [concatTexts]

/-- A list is separated when its head is separated from what follows and the rest is separated. -/
theorem separated_cons_iff {token : Token} {rest : List Token} :
    Separated (token :: rest) ↔
      (∀ next ∈ rest.head?,
        ¬(token.tokenClass = next.tokenClass ∧ token.tokenClass.isRun = true)) ∧
      Separated rest := by
  cases rest <;> simp [Separated]

/-- A symbol is separated from everything. -/
theorem separated_cons_of_symbol {token : Token} {rest : List Token}
    (symbol : token.tokenClass.isRun = false) (separated : Separated rest) :
    Separated (token :: rest) :=
  separated_cons_iff.mpr ⟨by simp [symbol], separated⟩

section Attach

variable {tokenClass : TokenClass} {c : Char} {tokens : List Token}

/-- A character that cannot join the first token is a token of its own. -/
theorem attach_of_apart (c : Char)
    (apart : ∀ next ∈ tokens.head?, ¬(tokenClass = next.tokenClass ∧ tokenClass.isRun = true)) :
    attach tokenClass c tokens = ⟨tokenClass, c.toString⟩ :: tokens := by
  cases tokens with
  | nil => rfl
  | cons token rest => exact if_neg (apart token rfl)

/-- A character joins a first token of its class when the class forms runs. -/
theorem attach_of_isRun (run : tokenClass.isRun = true) (c : Char) (text : String) :
    attach tokenClass c (⟨tokenClass, text⟩ :: tokens) =
      ⟨tokenClass, c.toString ++ text⟩ :: tokens :=
  if_pos ⟨rfl, run⟩

/-- A character stands apart from the first token or joins it. -/
theorem apart_or_joins (tokenClass : TokenClass) (tokens : List Token) :
    (∀ next ∈ tokens.head?, ¬(tokenClass = next.tokenClass ∧ tokenClass.isRun = true)) ∨
      tokenClass.isRun = true ∧ ∃ text rest, tokens = ⟨tokenClass, text⟩ :: rest := by
  cases tokens with
  | nil => exact .inl (by simp)
  | cons token rest =>
    obtain ⟨nextClass, text⟩ := token
    by_cases joins : tokenClass = nextClass ∧ tokenClass.isRun = true
    · obtain ⟨rfl, run⟩ := joins
      exact .inr ⟨run, text, rest, rfl⟩
    · exact .inl (by simpa using joins)

/-- An attached character comes first and the other characters stay. -/
theorem concatTexts_attach (tokenClass : TokenClass) (c : Char) (tokens : List Token) :
    concatTexts (attach tokenClass c tokens) = c.toString ++ concatTexts tokens := by
  rcases apart_or_joins tokenClass tokens with apart | ⟨run, text, rest, rfl⟩
  · rw [attach_of_apart c apart, concatTexts_cons]
  · rw [attach_of_isRun run, concatTexts_cons, concatTexts_cons, String.append_assoc]

/-- A character of the class that the table assigns to it is attached to fitting tokens so that they
fit again. -/
theorem fits_attach (assigned : classify? tokenRules c = some tokenClass)
    (fits : ∀ token ∈ tokens, token.Fits) : ∀ token ∈ attach tokenClass c tokens, token.Fits := by
  rcases apart_or_joins tokenClass tokens with apart | ⟨run, text, rest, rfl⟩
  · have single : Token.Fits ⟨tokenClass, c.toString⟩ := Token.fits_iff.mpr (by simp [assigned])
    rw [attach_of_apart c apart]
    exact List.forall_mem_cons.mpr ⟨single, fits⟩
  · obtain ⟨textFits, restFits⟩ := List.forall_mem_cons.mp fits
    obtain ⟨-, all⟩ := (Token.fits_iff_of_isRun run).mp textFits
    have joined : Token.Fits ⟨tokenClass, c.toString ++ text⟩ := by
      refine (Token.fits_iff_of_isRun ?_).mpr ?_
      · exact run
      · simpa [assigned] using all
    rw [attach_of_isRun run]
    exact List.forall_mem_cons.mpr ⟨joined, restFits⟩

/-- Attaching keeps tokens separated. -/
theorem separated_attach (separated : Separated tokens) :
    Separated (attach tokenClass c tokens) := by
  rcases apart_or_joins tokenClass tokens with apart | ⟨run, text, rest, rfl⟩
  · rw [attach_of_apart c apart]
    exact separated_cons_iff.mpr ⟨apart, separated⟩
  · obtain ⟨head, tail⟩ := separated_cons_iff.mp separated
    rw [attach_of_isRun run]
    exact separated_cons_iff.mpr ⟨head, tail⟩

end Attach

/-- A character is attached to the tokens of the characters behind it. -/
theorem lexFrom_cons {rules : List TokenRule} {offset : Nat} {c : Char} {rest : List Char}
    {tokenClass : TokenClass} {tokens : List Token}
    (assigned : classify? rules c = some tokenClass)
    (lexed : lexFrom rules (offset + c.utf8Size) rest = .ok tokens) :
    lexFrom rules offset (c :: rest) = .ok (attach tokenClass c tokens) := by
  simp [lexFrom, assigned, lexed, Except.map]

/-- The tokens of a character list obey the three laws. -/
theorem laws_of_lexFrom {offset : Nat} {characters : List Char} {tokens : List Token}
    (lexed : lexFrom tokenRules offset characters = .ok tokens) :
    (concatTexts tokens).toList = characters ∧ (∀ token ∈ tokens, token.Fits) ∧
      Separated tokens := by
  induction characters generalizing offset tokens with
  | nil =>
    cases lexed
    simp [concatTexts, Separated]
  | cons c rest ih =>
    obtain ⟨tokenClass, assigned⟩ := Option.isSome_iff_exists.mp (classify?_tokenRules_isSome c)
    obtain ⟨restTokens, restLexed⟩ :=
      exists_lexFrom_tokenRules_eq_ok (offset + c.utf8Size) rest
    obtain ⟨text, fits, separated⟩ := ih restLexed
    rw [lexFrom_cons assigned restLexed] at lexed
    cases lexed
    refine ⟨?_, fits_attach assigned fits, separated_attach separated⟩
    simp [concatTexts_attach, text]

/-- A run of one class in front of characters that start no token of that class is a token. -/
theorem lexFrom_run {tokenClass : TokenClass} {run rest : List Char} {tokens : List Token}
    (nonempty : run ≠ []) (assigned : ∀ c ∈ run, classify? tokenRules c = some tokenClass)
    (whole : tokenClass.isRun = true ∨ run.length = 1)
    (apart : ∀ next ∈ tokens.head?, ¬(tokenClass = next.tokenClass ∧ tokenClass.isRun = true))
    (lexed : ∀ offset, lexFrom tokenRules offset rest = .ok tokens) (offset : Nat) :
    lexFrom tokenRules offset (run ++ rest) = .ok (⟨tokenClass, String.ofList run⟩ :: tokens) := by
  induction run generalizing offset with
  | nil => exact absurd rfl nonempty
  | cons c more ih =>
    obtain ⟨first, others⟩ := List.forall_mem_cons.mp assigned
    cases more with
    | nil =>
      rw [List.cons_append, List.nil_append, lexFrom_cons first (lexed _), attach_of_apart c apart]
      rfl
    | cons d more =>
      have isRun : tokenClass.isRun = true := by simpa using whole
      have moreLexed := ih (by simp) others (.inl isRun)
      rw [List.cons_append, lexFrom_cons first (moreLexed _), attach_of_isRun isRun]
      simp

/-- Tokens that obey the laws are the tokens of their texts. -/
theorem lexFrom_concatTexts {tokens : List Token} (fits : ∀ token ∈ tokens, token.Fits)
    (separated : Separated tokens) (offset : Nat) :
    lexFrom tokenRules offset (concatTexts tokens).toList = .ok tokens := by
  induction tokens generalizing offset with
  | nil => rfl
  | cons token rest ih =>
    obtain ⟨tokenFits, restFits⟩ := List.forall_mem_cons.mp fits
    obtain ⟨nonempty, assigned, whole⟩ := Token.fits_iff.mp tokenFits
    obtain ⟨apart, restSeparated⟩ := separated_cons_iff.mp separated
    have lexed := lexFrom_run nonempty assigned whole apart (ih restFits restSeparated) offset
    rw [concatTexts_cons, String.toList_append, lexed, String.ofList_toList]

/-- The tokens of a text are the one token list that obeys the three laws. -/
theorem lex_eq_ok_iff {text : String} {tokens : List Token} :
    lex text = .ok tokens ↔
      concatTexts tokens = text ∧ (∀ token ∈ tokens, token.Fits) ∧ Separated tokens := by
  constructor
  · intro lexed
    obtain ⟨same, laws⟩ := laws_of_lexFrom lexed
    exact ⟨String.toList_inj.mp same, laws⟩
  · rintro ⟨rfl, fits, separated⟩
    exact lexFrom_concatTexts fits separated 0

/-- The significant tokens of a text are those of its tokens that are not white space. -/
theorem lexSignificant_eq_ok_iff {text : String} {significant : List Token} :
    lexSignificant text = .ok significant ↔
      ∃ tokens, lex text = .ok tokens ∧
        (tokens.filter fun token => !token.isWhitespace) = significant := by
  unfold lexSignificant
  cases lexed : lex text <;> simp [Except.map]

end LambdaTutor
