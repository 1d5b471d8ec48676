import Mathlib.Data.List.Forall2
import LambdaTutor.Proofs.Text.Encoding
import LambdaTutor.Proofs.Transcript.Lines
import LambdaTutor.Proofs.Transcript.Wording

/-!
# One answer for every submission

A session over UTF-8 text meets no line that it cannot read, so nothing ends it. Its output is a
sequence of lines, one for every line of the input that holds a token, in the same order. `Answers`
states what an answer tells about its line: the first words say whether the line has a value, and
what is shown of a value can be submitted again with the same answer.
-/

namespace LambdaTutor

/-- Whether a line has a significant token. -/
def hasTokens (line : String) : Bool :=
  match lexSignificant line with
  | .ok tokens => !tokens.isEmpty
  | .error _ => false

/-- The characters of token texts are those of the tokens. -/
theorem mem_concatTexts_iff {c : Char} {tokens : List Token} :
    c ∈ (concatTexts tokens).toList ↔ ∃ token ∈ tokens, c ∈ token.text.toList := by
  simp only [concatTexts, String.toList_join, List.flatMap_map, List.mem_flatMap]

/-- A text has no significant token exactly when it is blank. -/
theorem lexSignificant_eq_nil_iff (text : String) :
    lexSignificant text = .ok [] ↔ isBlank text = true := by
  obtain ⟨tokens, lexed⟩ := exists_lexFrom_tokenRules_eq_ok 0 text.toList
  obtain ⟨rfl, fits, -⟩ := lex_eq_ok_iff.mp lexed
  rw [lexSignificant_eq_ok_iff, isBlank, List.all_eq_true]
  constructor
  · rintro ⟨_, sameLexed, none⟩ c member
    cases lexed.symm.trans sameLexed
    obtain ⟨token, inside, member⟩ := mem_concatTexts_iff.mp member
    have white : token.tokenClass = .whitespace := by
      simpa [Token.isWhitespace] using List.filter_eq_nil_iff.mp none token inside
    have assigned := (Token.fits_iff.mp (fits token inside)).2.1 c member
    rwa [white, classify?_eq_whitespace_iff] at assigned
  · intro blank
    refine ⟨tokens, lexed, List.filter_eq_nil_iff.mpr fun token inside => ?_⟩
    obtain ⟨c, member⟩ := List.exists_mem_of_ne_nil _ (Token.fits_iff.mp (fits token inside)).1
    have white : isWhiteSpace c = true := blank c (mem_concatTexts_iff.mpr ⟨token, inside, member⟩)
    intro significant
    have visible := (fits token inside).isWhiteSpace_eq_false (by simpa using significant) c member
    exact absurd (white.symm.trans visible) (by decide)

/-- So the lines with tokens are those that are not blank. -/
theorem hasTokens_eq (line : String) : hasTokens line = !isBlank line := by
  obtain ⟨tokens, lexed, -⟩ := exists_lexSignificant line
  have blank := lexSignificant_eq_nil_iff line
  rw [lexed, Except.ok.injEq] at blank
  rw [hasTokens, lexed]
  cases known : isBlank line with
  | true => simp [blank.mpr known]
  | false => simp [mt blank.mp (by simp [known])]

/-- What an answer, given without its line feed, tells about its line. -/
structure Answers (line answer : String) : Prop where
  /-- It is the answer to the way in which the line ends. -/
  settled : ∃ ending, Settles line .empty ending ∧ answer? ending = some (answer ++ "\n")
  /-- It has no line feed of its own. -/
  unbroken : '\n' ∉ answer.toList
  /-- It starts like a value exactly when the line has one. -/
  value_iff : (∃ shown, answer = "< " ++ shown) ↔
    ∃ depth closure, evaluate depth line .empty = .value closure
  /-- Otherwise it says which of the writer's errors was made. -/
  error : (¬ ∃ depth closure, evaluate depth line .empty = .value closure) →
    (∃ words, answer = "parse error: " ++ words) ∨ ∃ words, answer = "eval error: " ++ words
  /-- It reports no fault of the program. -/
  not_internal : ∀ words, answer ≠ "internal error: " ++ words
  /-- What is shown of a value has the same answer, as a line of its own with any line ending. -/
  resubmitted : ∀ shown, answer = "< " ++ shown → ∀ ending ∈ ["", "\n", "\r\n"],
    Transcript.Records ⟨answer ++ "\n", .value ()⟩ (encodeText (shown ++ ending))

/-- A text with a character that is not white space is not blank. -/
theorem isBlank_eq_false_of_mem {text : String} {c : Char} (member : c ∈ text.toList)
    (visible : isWhiteSpace c = false) : isBlank text = false := by
  rw [isBlank, List.all_eq_false]
  exact ⟨c, member, by simp [visible]⟩

theorem ne_empty_of_isBlank_eq_false {text : String} (visible : isBlank text = false) :
    text ≠ "" := by
  rintro rfl
  cases visible

/-- An inline text is a line of its own, with any line ending. -/
theorem splitLines_of_isInline {text : String} (visible : isBlank text = false)
    (inline : isInline text = true) {ending : String} (member : ending ∈ ["", "\n", "\r\n"]) :
    splitLines (encodeText (text ++ ending)) = [encodeText text] := by
  rw [encodeText_append]
  refine splitLines_encodeText_append (ne_empty_of_isBlank_eq_false visible)
    (not_mem_of_isInline inline (by decide) (by decide)) ?_ ?_
  · intro returns
    exact absurd returns (not_mem_of_isInline inline (by decide) (by decide))
  · simp only [List.mem_cons, List.not_mem_nil, or_false] at member
    rcases member with rfl | rfl | rfl
    · exact .inl rfl
    · exact .inr rfl
    · exact .inr rfl

namespace Transcript

variable {depth : Nat} {line answer : String} {lines : List String}

theorem ofLine_of_blank (blank : isBlank line = true) (depth : Nat) :
    ofLine depth (encodeText line) = empty := by
  rw [ofLine, decodeText?_encodeText]
  exact if_pos blank

theorem ofLine_of_answer (visible : isBlank line = false)
    (answered : answer? (evaluate depth line .empty) = some answer) :
    ofLine depth (encodeText line) = ⟨answer, .value ()⟩ := by
  rw [ofLine, decodeText?_encodeText]
  simp only [visible, answered]
  rfl

theorem ofLine_of_exhausted (visible : isBlank line = false)
    (exhausted : evaluate depth line .empty = .exhausted) :
    ofLine depth (encodeText line) = ⟨"", .exhausted⟩ := by
  rw [ofLine, decodeText?_encodeText]
  simp only [visible, exhausted]
  rfl

/-- An input of one line has the answer to that line for its output. -/
theorem ofInput_of_single {input : List UInt8} (split : splitLines input = [encodeText line])
    (visible : isBlank line = false)
    (answered : answer? (evaluate depth line .empty) = some answer) :
    ofInput depth input = ⟨answer, .value ()⟩ := by
  rw [ofInput, split, ofLines_cons, ofLine_of_answer visible answered]
  exact andThen_empty _

/-- What is shown of a value is answered as the value was. -/
theorem records_display {closure : Closure} (run : evaluate depth line .empty = .value closure)
    {ending : String} (member : ending ∈ ["", "\n", "\r\n"]) :
    Records ⟨"< " ++ closure.display ++ "\n", .value ()⟩
      (encodeText (closure.display ++ ending)) := by
  have source : closure.FromSource := .evaluated (by simp) run
  have parsed : parse closure.display = .ok (closure.readback []) :=
    Term.parse_print (source.writable_readback [])
  have inline : isInline closure.display = true := isInline_display_of_evaluate run
  obtain ⟨param, body, env⟩ := closure
  obtain ⟨value, -, again, rendered⟩ := exists_evaluate_of_parse_lam parsed
  have opened : '(' ∈ (Closure.mk param body env).display.toList := by
    simp [Closure.display, Closure.render, Closure.readback, Term.print]
  have visible := isBlank_eq_false_of_mem opened (by decide)
  refine ⟨by simp, 1, ofInput_of_single (splitLines_of_isInline visible inline member) visible ?_⟩
  rw [again 0, answer?, Closure.display, rendered]
  rfl

/-- A line that has a value is answered with it. -/
theorem answers_of_value {closure : Closure}
    (run : evaluate depth line .empty = .value closure) :
    Answers line ("< " ++ closure.display) where
  settled := ⟨.value closure, ⟨by simp, depth, run⟩, rfl⟩
  unbroken := by
    have inline : isInline ("< " ++ closure.display) = true := by
      rw [isInline_append, isInline_display_of_evaluate run]
      decide
    exact not_mem_of_isInline inline (by decide) (by decide)
  value_iff := ⟨fun _ => ⟨depth, closure, run⟩, fun _ => ⟨_, rfl⟩⟩
  error := fun without => absurd ⟨depth, closure, run⟩ without
  not_internal := by
    intro words same
    simpa using congrArg String.toList same
  resubmitted := by
    intro shown same ending member
    rw [← (String.append_right_inj "< ").mp same]
    exact records_display run member

/-- A line that fails is answered with the message of its error. -/
theorem answers_of_error {cause : SourceError}
    (run : evaluate depth line .empty = .error cause) : Answers line cause.message := by
  have settles : Settles line .empty (.error cause) := ⟨by simp, depth, run⟩
  have without : ¬ ∃ depth closure, evaluate depth line .empty = .value closure := by
    rintro ⟨other, closure, otherRun⟩
    cases settles.unique ⟨by simp, other, otherRun⟩
  have writers : (∃ words, cause.message = "parse error: " ++ words) ∨
      ∃ words, cause.message = "eval error: " ++ words := by
    have mendable := isUserError_of_evaluate run
    cases cause with
    | parse cause => exact .inl ⟨_, rfl⟩
    | eval cause => exact .inr ⟨_, rfl⟩
    | internal cause => cases mendable
  have unlike (words : String) : cause.message ≠ "< " ++ words := by
    rcases writers with ⟨rest, start⟩ | ⟨rest, start⟩ <;> rw [start] <;> intro same <;>
      simpa using congrArg String.toList same
  refine ⟨⟨.error cause, settles, rfl⟩, ?_, ?_, fun _ => writers, ?_, ?_⟩
  · exact not_mem_of_isInline (isInline_message_of_evaluate run) (by decide) (by decide)
  · constructor
    · rintro ⟨shown, same⟩
      exact absurd same (unlike shown)
    · intro value
      exact absurd value without
  · intro words same
    rcases writers with ⟨rest, start⟩ | ⟨rest, start⟩ <;> rw [start] at same <;>
      simpa using congrArg String.toList same
  · intro shown same
    exact absurd same (unlike shown)

/-- A line of text is skipped or answered. -/
theorem ofLine_encodeText (ends : (ofLine depth (encodeText line)).ending ≠ .exhausted) :
    (isBlank line = true ∧ ofLine depth (encodeText line) = empty) ∨
      (isBlank line = false ∧ ∃ answer, Answers line answer ∧
        ofLine depth (encodeText line) = ⟨answer ++ "\n", .value ()⟩) := by
  cases visible : isBlank line with
  | true => exact .inl ⟨rfl, ofLine_of_blank visible depth⟩
  | false =>
    refine .inr ⟨rfl, ?_⟩
    cases run : evaluate depth line .empty with
    | value closure =>
      exact ⟨_, answers_of_value run, ofLine_of_answer visible (by rw [run]; rfl)⟩
    | error cause =>
      exact ⟨_, answers_of_error run, ofLine_of_answer visible (by rw [run]; rfl)⟩
    | exhausted => exact absurd (by rw [ofLine_of_exhausted visible run]) ends

/-- A session over lines of text that ends has answered the lines with tokens, in their order. -/
theorem exists_answers_of_ofLines
    (ends : (ofLines depth (lines.map encodeText)).ending ≠ .exhausted) :
    ∃ answers, List.Forall₂ Answers (lines.filter hasTokens) answers ∧
      ofLines depth (lines.map encodeText) =
        ⟨String.join (answers.map (· ++ "\n")), .value ()⟩ := by
  induction lines with
  | nil => exact ⟨[], .nil, rfl⟩
  | cons line lines ih =>
    rw [List.map_cons, ofLines_cons] at ends ⊢
    have lineEnds : (ofLine depth (encodeText line)).ending ≠ .exhausted := by
      intro exhausted
      rw [andThen_of_ne_value (by simp [exhausted])] at ends
      exact ends exhausted
    rcases ofLine_encodeText lineEnds with
      ⟨blank, skipped⟩ | ⟨visible, answer, answered, written⟩
    · rw [skipped, empty_andThen] at ends ⊢
      obtain ⟨answers, each, session⟩ := ih ends
      refine ⟨answers, ?_, session⟩
      rwa [List.filter_cons_of_neg (by simp [hasTokens_eq, blank])]
    · rw [written, andThen_of_value rfl] at ends ⊢
      obtain ⟨answers, each, session⟩ := ih ends
      refine ⟨answer :: answers, ?_, ?_⟩
      · rw [List.filter_cons_of_pos (by simp [hasTokens_eq, visible])]
        exact .cons answered each
      · rw [session, List.map_cons, String.join_cons]

end Transcript

/-- Answers are framed. A session over UTF-8 text that ends does so without an error. Its output is
one answer, followed by a line feed, for every line of the text with a significant token, in the
order of the lines; the lines that are skipped as blank are those without such a token. Every answer
is what `Answers` says: it has no line feed, it starts with `< ` exactly when its line has a value
and with `parse error: ` or `eval error: ` otherwise, and what is shown of a value is answered in
the same way when it is submitted again. -/
theorem answers_are_framed (text : String) (transcript : Transcript)
    (records : transcript.Records (encodeText text)) :
    transcript.ending = .value () ∧
    (∃ lines answers : List String, splitLines (encodeText text) = lines.map encodeText ∧
      List.Forall₂ Answers (lines.filter hasTokens) answers ∧
      transcript.output = String.join (answers.map (· ++ "\n"))) ∧
    ∀ line, isBlank line = true ↔ lexSignificant line = .ok [] := by
  obtain ⟨ends, depth, rfl⟩ := records
  obtain ⟨lines, split⟩ := exists_splitLines_encodeText text
  rw [Transcript.ofInput, split] at ends ⊢
  obtain ⟨answers, each, session⟩ := Transcript.exists_answers_of_ofLines ends
  rw [session]
  exact ⟨rfl, ⟨lines, answers, rfl, each, rfl⟩, fun line => (lexSignificant_eq_nil_iff line).symm⟩

/-- A value, a blank line with an ideographic space, and an error of either kind. -/
theorem answers_are_framed_mixed :
    let text := "(\\x.x)\r\n \u3000\ny\n(\\x"
    let output :=
      "< (\\x.x)\neval error: undefined variable: y\nparse error: expected '.', got end-of-input\n"
    Transcript.Records ⟨output, .value ()⟩ (encodeText text) ∧
    ∃ lines answers : List String, splitLines (encodeText text) = lines.map encodeText ∧
      List.Forall₂ Answers (lines.filter hasTokens) answers ∧
      output = String.join (answers.map (· ++ "\n")) := by
  intro text output
  have records : Transcript.Records ⟨output, .value ()⟩ (encodeText text) := ⟨by simp, 1, rfl⟩
  exact ⟨records, (answers_are_framed text _ records).2.1⟩

end LambdaTutor
