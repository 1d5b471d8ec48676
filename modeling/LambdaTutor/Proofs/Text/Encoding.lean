import LambdaTutor.Text.Line

/-!
# Lines of encoded text

Streams are cut into lines before they are decoded. In UTF-8 this makes no difference: the bytes
that end a line occur in the encoding of no other character, so a cut never falls inside of a
character and the lines of an encoded text are encoded texts again (`exists_splitLines_encodeText`).
-/

namespace LambdaTutor

/-- What was encoded can be decoded. -/
theorem decodeText?_encodeText (text : String) : decodeText? (encodeText text) = some text := by
  have bytes : (⟨(encodeText text).toArray⟩ : ByteArray) = text.toByteArray := rfl
  rw [decodeText?, bytes, String.fromUTF8?, dif_pos text.isValidUTF8]
  rfl

/-- A text is encoded character by character. -/
theorem encodeText_eq_flatMap (text : String) :
    encodeText text = text.toList.flatMap String.utf8EncodeChar := by
  rw [encodeText, ← String.utf8Encode_toList, List.utf8Encode, List.toList_data_toByteArray]

theorem encodeText_append (text other : String) :
    encodeText (text ++ other) = encodeText text ++ encodeText other := by
  simp only [encodeText_eq_flatMap, String.toList_append, List.flatMap_append]

theorem encodeText_eq_nil_iff {text : String} : encodeText text = [] ↔ text = "" := by
  rw [encodeText_eq_flatMap, List.flatMap_eq_nil_iff]
  constructor
  · intro none
    rw [← String.toList_eq_nil_iff, List.eq_nil_iff_forall_not_mem]
    exact fun c member => String.utf8EncodeChar_ne_nil (none c member)
  · rintro rfl c member
    cases member

/-- A byte of the ASCII range encodes its own character. In an encoding of several bytes each of
them lies beyond the range. -/
theorem toNat_eq_of_mem_utf8EncodeChar {byte : UInt8} (ascii : byte.toNat ≤ 127) {c : Char}
    (member : byte ∈ String.utf8EncodeChar c) : c.toNat = byte.toNat := by
  have value : c.val.toNat = c.toNat := rfl
  have number : byte.toNat ∈ (String.utf8EncodeChar c).map UInt8.toNat := List.mem_map_of_mem member
  simp only [String.utf8EncodeChar, value, apply_ite (List.map UInt8.toNat), List.map_cons,
    List.map_nil, UInt8.toNat_ofNat'] at number
  grind

/-- The bytes that end a line encode their characters only. -/
theorem eq_of_lineFeed_mem_utf8EncodeChar {c : Char} (member : lineFeed ∈ String.utf8EncodeChar c) :
    c = '\n' :=
  Char.toNat_inj.mp (toNat_eq_of_mem_utf8EncodeChar (by decide) member)

theorem eq_of_carriageReturn_mem_utf8EncodeChar {c : Char}
    (member : carriageReturn ∈ String.utf8EncodeChar c) : c = '\r' :=
  Char.toNat_inj.mp (toNat_eq_of_mem_utf8EncodeChar (by decide) member)

/-- An encoded text holds the bytes that end a line only where the text holds their characters. -/
theorem mem_of_lineFeed_mem_encodeText {text : String} (member : lineFeed ∈ encodeText text) :
    '\n' ∈ text.toList := by
  rw [encodeText_eq_flatMap, List.mem_flatMap] at member
  obtain ⟨c, inside, member⟩ := member
  rwa [eq_of_lineFeed_mem_utf8EncodeChar member] at inside

theorem mem_of_carriageReturn_mem_encodeText {text : String}
    (member : carriageReturn ∈ encodeText text) : '\r' ∈ text.toList := by
  rw [encodeText_eq_flatMap, List.mem_flatMap] at member
  obtain ⟨c, inside, member⟩ := member
  rwa [eq_of_carriageReturn_mem_utf8EncodeChar member] at inside

/-- Bytes are put in front of the first line one by one. -/
theorem foldr_consToFirstLine_cons (bytes line : List UInt8) (lines : List (List UInt8)) :
    bytes.foldr consToFirstLine (line :: lines) = (bytes ++ line) :: lines := by
  induction bytes with
  | nil => rfl
  | cons byte bytes ih => rw [List.foldr_cons, ih]; rfl

theorem foldr_consToFirstLine_nil {bytes : List UInt8} (nonempty : bytes ≠ []) :
    bytes.foldr consToFirstLine [] = [bytes] := by
  obtain ⟨init, last, rfl⟩ := List.eq_nil_or_concat bytes |>.resolve_left nonempty
  simp [consToFirstLine, foldr_consToFirstLine_cons]

/-- Bytes without a line feed belong to the first line of what stands behind them, if a carriage
return at their end does not belong to its ending. -/
theorem splitLines_append_of_not_mem {bytes rest : List UInt8} (plain : lineFeed ∉ bytes)
    (apart : bytes.getLast? = some carriageReturn → rest.head? ≠ some lineFeed) :
    splitLines (bytes ++ rest) = bytes.foldr consToFirstLine (splitLines rest) := by
  induction bytes with
  | nil => rfl
  | cons byte bytes ih =>
    obtain ⟨different, others⟩ := not_or.mp (mt List.mem_cons.mpr plain)
    have kept : ¬(byte = carriageReturn ∧ (bytes ++ rest).head? = some lineFeed) := by
      rintro ⟨rfl, feed⟩
      cases bytes with
      | nil => exact apart rfl feed
      | cons next bytes =>
        cases feed
        exact others List.mem_cons_self
    rw [List.cons_append, splitLines, if_neg (Ne.symm different), if_neg kept, List.foldr_cons,
      ih others]
    intro last
    cases bytes with
    | nil => cases last
    | cons next bytes => exact apart (by rw [List.getLast?_cons_cons, last])

/-- An encoded character in front of encoded lines belongs to the first of them. -/
theorem exists_foldr_consToFirstLine_eq_map (c : Char) (lines : List String) :
    ∃ joined : List String,
      (String.utf8EncodeChar c).foldr consToFirstLine (lines.map encodeText) =
        joined.map encodeText := by
  cases lines with
  | nil =>
    refine ⟨[String.singleton c], ?_⟩
    simp [foldr_consToFirstLine_nil String.utf8EncodeChar_ne_nil, encodeText_eq_flatMap]
  | cons line lines =>
    refine ⟨(String.singleton c ++ line) :: lines, ?_⟩
    simp [foldr_consToFirstLine_cons, encodeText_eq_flatMap]

/-- The lines of an encoded text are encoded texts. -/
theorem exists_splitLines_encodeText (text : String) :
    ∃ lines : List String, splitLines (encodeText text) = lines.map encodeText := by
  rw [encodeText_eq_flatMap]
  induction text.toList with
  | nil => exact ⟨[], rfl⟩
  | cons c rest ih =>
    obtain ⟨lines, restLines⟩ := ih
    rw [List.flatMap_cons]
    by_cases feed : c = '\n'
    · subst feed
      exact ⟨"" :: lines, by rw [List.map_cons, ← restLines]; rfl⟩
    by_cases ending : c = '\r' ∧ (rest.flatMap String.utf8EncodeChar).head? = some lineFeed
    · obtain ⟨rfl, next⟩ := ending
      have single : String.utf8EncodeChar '\r' = [carriageReturn] := rfl
      rw [single, List.singleton_append, splitLines, if_neg (by decide), if_pos ⟨rfl, next⟩]
      exact ⟨lines, restLines⟩
    · have plain : lineFeed ∉ String.utf8EncodeChar c := mt eq_of_lineFeed_mem_utf8EncodeChar feed
      rw [splitLines_append_of_not_mem plain, restLines]
      · exact exists_foldr_consToFirstLine_eq_map c lines
      · intro last next
        exact ending ⟨eq_of_carriageReturn_mem_utf8EncodeChar (List.mem_of_getLast? last), next⟩

/-- A text without a line feed is one line, whether a line ending follows it or not. -/
theorem splitLines_encodeText_append {text : String} {ending : List UInt8} (nonempty : text ≠ "")
    (unbroken : '\n' ∉ text.toList) (apart : '\r' ∈ text.toList → ending.head? ≠ some lineFeed)
    (ends : splitLines ending = [] ∨ splitLines ending = [[]]) :
    splitLines (encodeText text ++ ending) = [encodeText text] := by
  have bytes : encodeText text ≠ [] := mt encodeText_eq_nil_iff.mp nonempty
  rw [splitLines_append_of_not_mem (mt mem_of_lineFeed_mem_encodeText unbroken)]
  · rcases ends with ends | ends
    · rw [ends, foldr_consToFirstLine_nil bytes]
    · rw [ends, foldr_consToFirstLine_cons, List.append_nil]
  · intro last
    exact apart (mem_of_carriageReturn_mem_encodeText (List.mem_of_getLast? last))

end LambdaTutor
