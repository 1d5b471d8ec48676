import LambdaTutor.Proofs.Parsing.Lexing

/-!
# Scanning

The lexer looks at one character at a time. Here it is compared with the way in which a rule table
is usually read: at the front of what is left of the text the first rule that accepts the character
cuts off as much as it can, and white space is dropped at once when it is not wanted. The rules do
not overlap (`accepts_iff_of_mem`), so both ways give the same tokens, and the tokens are the only
ones that obey the laws of lexing.
-/

namespace LambdaTutor

/-- How far a rule goes on behind a character that it accepts: as far as it accepts what follows,
when its class forms runs. -/
def TokenRule.extent (rule : TokenRule) (behind : List Char) : List Char :=
  if rule.tokenClass.isRun then behind.takeWhile rule.accepts else []

/-- Cuts tokens off the front of a character list that starts at a byte offset of the text. White
space is dropped on request. -/
def scanFrom (rules : List TokenRule) (discard : Bool) (offset : Nat) :
    List Char → Except LexError (List Token)
  | [] => .ok []
  | c :: behind =>
    match rules.find? fun rule => rule.accepts c with
    | none => .error (.noMatchingRule offset)
    | some rule =>
      let token : Token := ⟨rule.tokenClass, String.ofList (c :: rule.extent behind)⟩
      let rest := behind.drop (rule.extent behind).length
      (scanFrom rules discard (offset + token.text.utf8ByteSize) rest).map fun tokens =>
        if discard && token.isWhitespace then tokens else token :: tokens
termination_by characters => characters.length
decreasing_by
  simp only [List.length_drop, List.length_cons]
  omega

/-- The tokens of a text, scanned from its front, with or without the white space. -/
def scan (discard : Bool) (text : String) : Except LexError (List Token) :=
  scanFrom tokenRules discard 0 text.toList

/-- A rule of the table accepts the characters of its class and no others. -/
theorem accepts_iff_of_mem {rule : TokenRule} (member : rule ∈ tokenRules) (c : Char) :
    rule.accepts c = true ↔ classify? tokenRules c = some rule.tokenClass := by
  simp only [tokenRules, List.mem_cons, List.not_mem_nil, or_false] at member
  rcases member with rfl | rfl | rfl | rfl | rfl | rfl
  · exact classify?_eq_whitespace_iff.symm
  · rw [classify?_eq_symbol_iff rfl, beq_iff_eq]
  · rw [classify?_eq_symbol_iff rfl, beq_iff_eq]
  · rw [classify?_eq_symbol_iff rfl, beq_iff_eq]
  · rw [classify?_eq_symbol_iff rfl, beq_iff_eq]
  · simp [classify?_eq_identifier_iff, isNameCharacter, and_comm]

/-- The rule that gives a character its class is found at the character. -/
theorem exists_find?_of_classify? {tokenClass : TokenClass} {c : Char}
    (assigned : classify? tokenRules c = some tokenClass) :
    ∃ rule ∈ tokenRules, rule.tokenClass = tokenClass ∧
      (tokenRules.find? fun rule => rule.accepts c) = some rule := by
  obtain ⟨rule, found, rfl⟩ := Option.map_eq_some_iff.mp assigned
  exact ⟨rule, List.mem_of_find?_eq_some found, rfl, found⟩

/-- The first character of the texts of fitting tokens is of the class of the first token. -/
theorem classify?_of_mem_head?_concatTexts {tokens : List Token}
    (fits : ∀ token ∈ tokens, token.Fits) {c : Char}
    (first : c ∈ (concatTexts tokens).toList.head?) :
    ∃ token ∈ tokens.head?, classify? tokenRules c = some token.tokenClass := by
  cases tokens with
  | nil => simp at first
  | cons token rest =>
    obtain ⟨nonempty, assigned, -⟩ := Token.fits_iff.mp (fits token List.mem_cons_self)
    obtain ⟨d, more, text⟩ := List.exists_cons_of_ne_nil nonempty
    obtain rfl : d = c := by simpa [concatTexts_cons, text] using first
    exact ⟨token, rfl, assigned d (by simp [text])⟩

/-- A rule goes on to the end of a run of its class. -/
theorem TokenRule.extent_append {rule : TokenRule} (member : rule ∈ tokenRules)
    {more rest : List Char}
    (assigned : ∀ c ∈ more, classify? tokenRules c = some rule.tokenClass)
    (whole : rule.tokenClass.isRun = true ∨ more = [])
    (stops : rule.tokenClass.isRun = true → ∀ c ∈ rest.head?,
      classify? tokenRules c ≠ some rule.tokenClass) :
    rule.extent (more ++ rest) = more := by
  by_cases run : rule.tokenClass.isRun = true
  · have accepted : ∀ c ∈ more, rule.accepts c = true := fun c inside =>
      (accepts_iff_of_mem member c).mpr (assigned c inside)
    have refused : rest.takeWhile rule.accepts = [] := by
      cases rest with
      | nil => rfl
      | cons c rest =>
        exact List.takeWhile_cons_of_neg (mt (accepts_iff_of_mem member c).mp (stops run c rfl))
    rw [TokenRule.extent, if_pos run, List.takeWhile_append_of_pos accepted, refused,
      List.append_nil]
  · obtain rfl : more = [] := whole.resolve_left run
    exact if_neg run

/-- One step of the scan: the rule of the first character cuts its token off. -/
theorem scanFrom_append {rules : List TokenRule} {rule : TokenRule} {discard : Bool} {c : Char}
    {more rest : List Char} {tokens : List Token}
    (found : (rules.find? fun rule => rule.accepts c) = some rule)
    (extent : rule.extent (more ++ rest) = more)
    (scanned : ∀ offset, scanFrom rules discard offset rest = .ok tokens) (offset : Nat) :
    scanFrom rules discard offset (c :: more ++ rest) = .ok
      (if discard && Token.isWhitespace ⟨rule.tokenClass, String.ofList (c :: more)⟩ then tokens
      else ⟨rule.tokenClass, String.ofList (c :: more)⟩ :: tokens) := by
  rw [List.cons_append, scanFrom, found]
  simp only [extent, List.drop_left, scanned]
  rfl

/-- Tokens that obey the laws are scanned from their texts. -/
theorem scanFrom_concatTexts {tokens : List Token} (fits : ∀ token ∈ tokens, token.Fits)
    (separated : Separated tokens) (discard : Bool) (offset : Nat) :
    scanFrom tokenRules discard offset (concatTexts tokens).toList =
      .ok (tokens.filter fun token => !(discard && token.isWhitespace)) := by
  induction tokens generalizing offset with
  | nil => rw [concatTexts_nil, String.toList_empty, scanFrom, List.filter_nil]
  | cons token rest ih =>
    obtain ⟨tokenFits, restFits⟩ := List.forall_mem_cons.mp fits
    obtain ⟨nonempty, assigned, whole⟩ := Token.fits_iff.mp tokenFits
    obtain ⟨apart, restSeparated⟩ := separated_cons_iff.mp separated
    obtain ⟨c, more, text⟩ := List.exists_cons_of_ne_nil nonempty
    rw [text] at assigned whole
    obtain ⟨first, others⟩ := List.forall_mem_cons.mp assigned
    obtain ⟨rule, member, sameClass, found⟩ := exists_find?_of_classify? first
    have extent : rule.extent (more ++ (concatTexts rest).toList) = more := by
      -- The next token is of another class, so the rule stops where this token ends.
      rw [← sameClass] at others whole apart
      refine TokenRule.extent_append member others (by simpa using whole) ?_
      intro run d starts ofClass
      obtain ⟨next, nextFirst, nextClass⟩ := classify?_of_mem_head?_concatTexts restFits starts
      rw [ofClass, Option.some.injEq] at nextClass
      exact apart next nextFirst ⟨nextClass, run⟩
    have step := scanFrom_append found extent (ih restFits restSeparated) offset
    rw [concatTexts_cons, String.toList_append, text, step, sameClass, ← text,
      String.ofList_toList, List.filter_cons]
    cases discard && token.isWhitespace <;> rfl

/-- Every text has tokens. -/
theorem exists_lex (text : String) : ∃ tokens, lex text = .ok tokens :=
  exists_lexFrom_tokenRules_eq_ok 0 text.toList

/-- Scanning gives the tokens that the lexer gives, with or without the white space. -/
theorem scan_eq (discard : Bool) (text : String) :
    scan discard text = if discard then lexSignificant text else lex text := by
  obtain ⟨tokens, lexed⟩ := exists_lex text
  obtain ⟨rfl, fits, separated⟩ := lex_eq_ok_iff.mp lexed
  rw [scan, scanFrom_concatTexts fits separated]
  cases discard with
  | false =>
    have all : (tokens.filter fun token => !(false && token.isWhitespace)) = tokens :=
      List.filter_eq_self.mpr fun _ _ => rfl
    rw [all]
    exact lexed.symm
  | true => exact (lexSignificant_eq_ok_iff.mpr ⟨tokens, lexed, rfl⟩).symm

/-- The laws of lexing determine the lexer. Every text has tokens; they are the one and only token
list whose texts make up the text, whose texts fit their classes and whose neighbours could not be
one token; and the significant tokens are those of them that are not white space. Cutting the
longest match of the first rule off the front, step by step, gives the same in both cases. -/
theorem lexing_laws_determine_tokens (text : String) :
    ∃ tokens, lex text = .ok tokens ∧
      (∀ other : List Token,
        (concatTexts other = text ∧ (∀ token ∈ other, token.Fits) ∧ Separated other) ↔
          other = tokens) ∧
      lexSignificant text = .ok (tokens.filter fun token => !token.isWhitespace) ∧
      scan false text = lex text ∧ scan true text = lexSignificant text := by
  obtain ⟨tokens, lexed⟩ := exists_lex text
  refine ⟨tokens, lexed, ?_, lexSignificant_eq_ok_iff.mpr ⟨tokens, lexed, rfl⟩,
    scan_eq false text, scan_eq true text⟩
  intro other
  rw [← lex_eq_ok_iff, lexed, Except.ok.injEq, eq_comm]

end LambdaTutor
