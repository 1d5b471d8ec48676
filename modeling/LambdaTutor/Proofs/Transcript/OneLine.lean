import LambdaTutor.Proofs.Parsing.Layout
import LambdaTutor.Proofs.Transcript.Framing
import LambdaTutor.Run

/-!
# Programs on one line

A source file may spread its program over many lines, and a session takes a line for a program. The
two see the same program when the line feeds of the file are replaced by blanks: every character
that is not white space stays where it is, so the tokens do too. The replacement is one of many that
`Respaces` allows.
-/

namespace LambdaTutor

/-- Rewriting characters in this way exchanges white space for white space, and nothing else. -/
structure Respaces (f : Char → Char) : Prop where
  white : ∀ c, isWhiteSpace c = true → isWhiteSpace (f c) = true
  kept : ∀ c, isWhiteSpace c = false → f c = c

/-- The token whose text is rewritten character by character. -/
def Token.mapText (f : Char → Char) (token : Token) : Token :=
  ⟨token.tokenClass, token.text.map f⟩

theorem concatTexts_map_mapText (f : Char → Char) (tokens : List Token) :
    concatTexts (tokens.map (Token.mapText f)) = (concatTexts tokens).map f := by
  rw [← String.toList_inj]
  simp [concatTexts, Token.mapText, String.toList_join, List.flatMap_map, List.map_flatMap]

namespace Respaces

variable {f : Char → Char} {tokens : List Token}

theorem classify?_eq (respaces : Respaces f) (c : Char) :
    classify? tokenRules (f c) = classify? tokenRules c := by
  cases known : isWhiteSpace c with
  | true =>
    rw [classify?_eq_whitespace_iff.mpr known,
      classify?_eq_whitespace_iff.mpr (respaces.white c known)]
  | false => rw [respaces.kept c known]

theorem fits_mapText (respaces : Respaces f) {token : Token} (fits : token.Fits) :
    (token.mapText f).Fits := by
  obtain ⟨nonempty, assigned, single⟩ := Token.fits_iff.mp fits
  refine Token.fits_iff.mpr ⟨?_, ?_, ?_⟩
  · simpa [Token.mapText] using nonempty
  · simpa [Token.mapText, respaces.classify?_eq] using assigned
  · simpa [Token.mapText] using single

/-- A significant token has no white space to exchange. -/
theorem mapText_eq (respaces : Respaces f) {token : Token} (fits : token.Fits)
    (significant : token.isWhitespace = false) : token.mapText f = token := by
  have kept : ∀ c ∈ token.text.toList, f c = c := fun c member =>
    respaces.kept c (fits.isWhiteSpace_eq_false significant c member)
  have sameText : token.text.map f = token.text := by
    rw [← String.toList_inj, String.toList_map, List.map_congr_left kept, List.map_id']
  rw [Token.mapText, sameText]

theorem filter_map_mapText (respaces : Respaces f) (fits : ∀ token ∈ tokens, token.Fits) :
    ((tokens.map (Token.mapText f)).filter fun token => !token.isWhitespace) =
      tokens.filter fun token => !token.isWhitespace := by
  have unchanged : ∀ token ∈ tokens.filter fun token => !token.isWhitespace,
      token.mapText f = token := by
    intro token member
    obtain ⟨inside, significant⟩ := List.mem_filter.mp member
    exact respaces.mapText_eq (fits token inside) (by simpa using significant)
  calc
    _ = (tokens.filter fun token => !token.isWhitespace).map (Token.mapText f) := List.filter_map
    _ = tokens.filter fun token => !token.isWhitespace := by
      rw [List.map_congr_left unchanged, List.map_id']

/-- The significant tokens of a text do not depend on which white space stands in it. -/
theorem lexSignificant_map (respaces : Respaces f) (text : String) :
    lexSignificant (text.map f) = lexSignificant text := by
  obtain ⟨tokens, lexed⟩ := exists_lexFrom_tokenRules_eq_ok 0 text.toList
  obtain ⟨rfl, fits, separated⟩ := lex_eq_ok_iff.mp lexed
  have mappedFits : ∀ token ∈ tokens.map (Token.mapText f), token.Fits :=
    List.forall_mem_map.mpr fun token inside => respaces.fits_mapText (fits token inside)
  have apart : IdentifiersApart tokens := separated.identifiersApart
  have mappedApart : IdentifiersApart (tokens.map (Token.mapText f)) :=
    (List.isChain_map _).mpr apart
  rw [← concatTexts_map_mapText, lexSignificant_concatTexts mappedFits mappedApart,
    lexSignificant_concatTexts fits apart, respaces.filter_map_mapText fits]

/-- So neither does its value. -/
theorem evaluate_map (respaces : Respaces f) (depth : Nat) (text : String) (env : Environment) :
    evaluate depth (text.map f) env = evaluate depth text env :=
  evaluate_congr (respaces.lexSignificant_map text) depth env

theorem isBlank_map (respaces : Respaces f) (text : String) :
    isBlank (text.map f) = isBlank text := by
  rw [Bool.eq_iff_iff, ← lexSignificant_eq_nil_iff, ← lexSignificant_eq_nil_iff,
    respaces.lexSignificant_map]

end Respaces

/-- The character that stands for another one in a text on one line. -/
def blankLineFeed (c : Char) : Char :=
  if c = '\n' then ' ' else c

/-- A text with a blank in the place of every line feed. -/
def onOneLine (text : String) : String :=
  text.map blankLineFeed

theorem respaces_blankLineFeed : Respaces blankLineFeed where
  white := by
    intro c white
    by_cases feed : c = '\n'
    · rw [blankLineFeed, if_pos feed]
      decide
    · rwa [blankLineFeed, if_neg feed]
  kept := by
    intro c visible
    refine if_neg ?_
    rintro rfl
    exact absurd visible (by decide)

theorem not_mem_onOneLine (text : String) : '\n' ∉ (onOneLine text).toList := by
  rw [onOneLine, String.toList_map, List.mem_map]
  rintro ⟨c, -, same⟩
  by_cases feed : c = '\n'
  · rw [blankLineFeed, if_pos feed] at same
    exact absurd same (by decide)
  · rw [blankLineFeed, if_neg feed] at same
    exact feed same

theorem isBlank_onOneLine (text : String) : isBlank (onOneLine text) = isBlank text :=
  respaces_blankLineFeed.isBlank_map text

/-- A text on one line is the only line of its stream. Carriage returns in it stay. -/
theorem splitLines_onOneLine {text : String} (visible : isBlank text = false) :
    splitLines (encodeText (onOneLine text)) = [encodeText (onOneLine text)] := by
  have nonempty : onOneLine text ≠ "" :=
    ne_empty_of_isBlank_eq_false ((isBlank_onOneLine text).trans visible)
  have split : splitLines (encodeText (onOneLine text) ++ []) = [encodeText (onOneLine text)] :=
    splitLines_encodeText_append nonempty (not_mem_onOneLine text) (by simp) (.inl rfl)
  rwa [List.append_nil] at split

/-- The session over a text on one line answers the text. -/
theorem Transcript.ofInput_onOneLine {text answer : String} {depth : Nat}
    (visible : isBlank text = false)
    (answered : answer? (evaluate depth text .empty) = some answer) :
    ofInput depth (encodeText (onOneLine text)) = ⟨answer, .value ()⟩ := by
  have oneLineVisible : isBlank (onOneLine text) = false := (isBlank_onOneLine text).trans visible
  have oneLineAnswered : answer? (evaluate depth (onOneLine text) .empty) = some answer := by
    rw [onOneLine, respaces_blankLineFeed.evaluate_map, answered]
  exact ofInput_of_single (splitLines_onOneLine visible) oneLineVisible oneLineAnswered

/-- The run of a file that holds a text shows the value of the text. -/
theorem runFile_of_stored {text path : String} {view : FileView}
    (stored : view path = .ok (.file (encodeText text))) (depth : Nat) :
    runFile depth view path =
      ((evaluate depth text .empty).mapError .source).bind fun closure =>
        .value closure.display := by
  have read : view.readText path = .ok text := by
    simp only [FileView.readText, stored, bind, Except.bind, decodeText?_encodeText]
  rw [runFile, read]
  rfl

/-- A file and a session agree on every program, however the program is laid out. Take a text that
is not blank and whose evaluation ends, a file that holds it, and a session over the text with a
blank in the place of every line feed. When the run of the file ends with a result, the session
writes the answer with that result and nothing else. When it ends with an error, that is an error of
the source, and the session writes its message and nothing else. The session ends well in both
cases, and there is no third one. -/
theorem file_and_session_agree (text : String)
    (visible : ∃ c ∈ text.toList, isWhiteSpace c = false) (view : FileView) (path : String)
    (stored : view path = .ok (.file (encodeText text))) (depth : Nat)
    (ends : evaluate depth text .empty ≠ .exhausted) :
    let session := Transcript.ofInput depth (encodeText (onOneLine text))
    (∀ shown, runFile depth view path = .value shown →
      session = ⟨"< " ++ shown ++ "\n", .value ()⟩) ∧
    (∀ cause, runFile depth view path = .error cause →
      (∃ fault, cause = .source fault) ∧ session = ⟨cause.message ++ "\n", .value ()⟩) ∧
    runFile depth view path ≠ .exhausted := by
  intro session
  obtain ⟨c, member, visible⟩ := visible
  have visible : isBlank text = false := isBlank_eq_false_of_mem member visible
  have run := runFile_of_stored stored depth
  cases evaluated : evaluate depth text .empty with
  | value closure =>
    have answered : session = ⟨"< " ++ closure.display ++ "\n", .value ()⟩ :=
      Transcript.ofInput_onOneLine visible (by rw [evaluated]; rfl)
    rw [run, evaluated]
    refine ⟨?_, ?_, ?_⟩
    · rintro shown ⟨⟩
      exact answered
    · rintro cause ⟨⟩
    · rintro ⟨⟩
  | error fault =>
    have answered : session = ⟨fault.message ++ "\n", .value ()⟩ :=
      Transcript.ofInput_onOneLine visible (by rw [evaluated]; rfl)
    rw [run, evaluated]
    refine ⟨?_, ?_, ?_⟩
    · rintro shown ⟨⟩
    · rintro cause ⟨⟩
      exact ⟨⟨fault, rfl⟩, answered⟩
    · rintro ⟨⟩
  | exhausted => exact absurd evaluated ends

/-- A call with its argument on a line of its own, and the same call without its last line. -/
theorem file_and_session_agree_call :
    let holding : String → FileView := fun text _ => .ok (.file (encodeText text))
    runFile 3 (holding "((\\x.x)\r\n\t(\\y.y)\n)") "call.lc" = .value "(\\y.y)" ∧
    Transcript.ofInput 3 (encodeText "((\\x.x)\r \t(\\y.y) )") = ⟨"< (\\y.y)\n", .value ()⟩ ∧
    runFile 3 (holding "((\\x.x)\r\n\t(\\y.y)\n") "call.lc" =
      .error (.source (.parse (.unexpectedEndOfInput .rightParen))) ∧
    Transcript.ofInput 3 (encodeText "((\\x.x)\r \t(\\y.y) ") =
      ⟨"parse error: expected ')', got end-of-input\n", .value ()⟩ := by
  intro holding
  have evaluated : evaluate 3 "((\\x.x)\r\n\t(\\y.y)\n)" .empty =
      .value (.mk "y" (.var "y") .empty) := rfl
  have refused : evaluate 3 "((\\x.x)\r\n\t(\\y.y)\n" .empty =
      .error (.parse (.unexpectedEndOfInput .rightParen)) := rfl
  have callRun : runFile 3 (holding "((\\x.x)\r\n\t(\\y.y)\n)") "call.lc" =
      .value "(\\y.y)" := by
    rw [runFile_of_stored rfl, evaluated]
    rfl
  have unclosedRun : runFile 3 (holding "((\\x.x)\r\n\t(\\y.y)\n") "call.lc" =
      .error (.source (.parse (.unexpectedEndOfInput .rightParen))) := by
    rw [runFile_of_stored rfl, refused]
    rfl
  have callLine : onOneLine "((\\x.x)\r\n\t(\\y.y)\n)" = "((\\x.x)\r \t(\\y.y) )" := by
    simp [onOneLine, ← String.toList_inj, blankLineFeed]
  have unclosedLine : onOneLine "((\\x.x)\r\n\t(\\y.y)\n" = "((\\x.x)\r \t(\\y.y) " := by
    simp [onOneLine, ← String.toList_inj, blankLineFeed]
  have answered := (file_and_session_agree _ ⟨'x', by decide, by decide⟩ _ _ rfl 3
    (by simp [evaluated])).1 _ callRun
  have reported := ((file_and_session_agree _ ⟨'x', by decide, by decide⟩ _ _ rfl 3
    (by simp [refused])).2.1 _ unclosedRun).2
  rw [callLine] at answered
  rw [unclosedLine] at reported
  exact ⟨callRun, answered, unclosedRun, reported⟩

end LambdaTutor
