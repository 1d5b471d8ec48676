import LambdaTutor.Proofs.Evaluation.Bound
import LambdaTutor.Transcript

/-!
# Lines do not see each other

A session over a stream is the session over its lines. Where a stream is cut behind a line feed, its
lines are cut too, carriage returns included, so the session falls into the sessions over the two
parts: `Transcript.andThen` goes on with the second one, unless a line of the first part has ended
the session. `Transcript.Records` speaks of sessions that end, without the bound.
-/

namespace LambdaTutor

theorem consToFirstLine_append (byte : UInt8) {lines : List (List UInt8)} (nonempty : lines ≠ [])
    (others : List (List UInt8)) :
    consToFirstLine byte (lines ++ others) = consToFirstLine byte lines ++ others := by
  cases lines with
  | nil => exact absurd rfl nonempty
  | cons line rest => rfl

/-- Every stream has a line, unless it is empty. -/
theorem splitLines_ne_nil {input : List UInt8} (nonempty : input ≠ []) : splitLines input ≠ [] := by
  induction input with
  | nil => exact absurd rfl nonempty
  | cons byte rest ih =>
    rw [splitLines]
    by_cases feed : byte = lineFeed
    · simp [feed]
    · rw [if_neg feed]
      by_cases ending : byte = carriageReturn ∧ rest.head? = some lineFeed
      · -- The line feed behind the carriage return is part of the rest.
        rw [if_pos ending]
        apply ih
        rintro rfl
        simp at ending
      · rw [if_neg ending]
        cases splitLines rest <;> simp [consToFirstLine]

/-- The lines of a stream that is cut behind a line feed are those of its two parts. -/
theorem splitLines_append {first : List UInt8}
    (closed : first = [] ∨ first.getLast? = some lineFeed) (second : List UInt8) :
    splitLines (first ++ second) = splitLines first ++ splitLines second := by
  induction first with
  | nil => rfl
  | cons byte rest ih =>
    have last : (byte :: rest).getLast? = some lineFeed := by simpa using closed
    have restClosed : rest = [] ∨ rest.getLast? = some lineFeed := by
      cases rest with
      | nil => exact .inl rfl
      | cons next rest => exact .inr (by simpa [List.getLast?_cons_cons] using last)
    rw [List.cons_append, splitLines, splitLines, ih restClosed]
    by_cases feed : byte = lineFeed
    · rw [if_pos feed, if_pos feed, List.cons_append]
    · -- The byte is not the last one, so what follows it stands in the first part.
      have more : rest ≠ [] := by
        rintro rfl
        exact feed (by simpa using last)
      have sameHead : (rest ++ second).head? = rest.head? := by
        cases rest with
        | nil => exact absurd rfl more
        | cons next rest => rfl
      rw [if_neg feed, if_neg feed, sameHead]
      by_cases ending : byte = carriageReturn ∧ rest.head? = some lineFeed
      · rw [if_pos ending, if_pos ending]
      · rw [if_neg ending, if_neg ending]
        exact consToFirstLine_append byte (splitLines_ne_nil more) _

namespace Transcript

variable {depth deeper : Nat} {transcript : Transcript} {line : List UInt8}
  {lines : List (List UInt8)}

/-- The session that goes on with another one, unless it has been ended. -/
def andThen (transcript next : Transcript) : Transcript :=
  match transcript with
  | ⟨output, .value ()⟩ => next.prepend output
  | stopped => stopped

/-- A session that ends well goes on with the next one. -/
theorem andThen_of_value (ended : transcript.ending = .value ()) (next : Transcript) :
    transcript.andThen next = ⟨transcript.output ++ next.output, next.ending⟩ := by
  obtain ⟨output, ending⟩ := transcript
  cases ended
  rfl

/-- A session that has been ended does not see the next one. -/
theorem andThen_of_ne_value (ended : transcript.ending ≠ .value ()) (next : Transcript) :
    transcript.andThen next = transcript := by
  obtain ⟨output, ending⟩ := transcript
  cases ending with
  | value result => exact absurd rfl ended
  | error cause => rfl
  | exhausted => rfl

theorem empty_andThen (next : Transcript) : empty.andThen next = next := by
  rw [andThen_of_value rfl, empty, String.empty_append]

theorem andThen_empty (transcript : Transcript) : transcript.andThen empty = transcript := by
  obtain ⟨output, ending⟩ := transcript
  cases ending with
  | value result => rw [andThen_of_value rfl, empty, String.append_empty]
  | error cause => rfl
  | exhausted => rfl

/-- Sessions in a row can be grouped in either way. -/
theorem andThen_assoc (first second third : Transcript) :
    (first.andThen second).andThen third = first.andThen (second.andThen third) := by
  obtain ⟨output, ending⟩ := first
  obtain ⟨secondOutput, secondEnding⟩ := second
  cases ending with
  | value result =>
    cases secondEnding with
    | value result => simp only [andThen, prepend, String.append_assoc]
    | error cause => rfl
    | exhausted => rfl
  | error cause => rfl
  | exhausted => rfl

/-- A session over lines is that over the first line, and then that over the others. -/
theorem ofLines_cons (depth : Nat) (line : List UInt8) (lines : List (List UInt8)) :
    ofLines depth (line :: lines) = (ofLine depth line).andThen (ofLines depth lines) := rfl

/-- A session over two lists of lines is that over the first list, and then that over the second. -/
theorem ofLines_append (depth : Nat) (first second : List (List UInt8)) :
    ofLines depth (first ++ second) = (ofLines depth first).andThen (ofLines depth second) := by
  induction first with
  | nil => exact (empty_andThen _).symm
  | cons line lines ih => rw [List.cons_append, ofLines_cons, ofLines_cons, ih, andThen_assoc]

/-- So is a session over a stream that is cut behind a line feed. -/
theorem ofInput_append {first : List UInt8}
    (closed : first = [] ∨ first.getLast? = some lineFeed) (depth : Nat) (second : List UInt8) :
    ofInput depth (first ++ second) = (ofInput depth first).andThen (ofInput depth second) := by
  rw [ofInput, splitLines_append closed, ofLines_append, ofInput, ofInput]

/-- A line that keeps within the bound is answered in the same way under any larger bound. -/
theorem ofLine_eq_of_le (within : depth ≤ deeper)
    (ends : (ofLine depth line).ending ≠ .exhausted) : ofLine deeper line = ofLine depth line := by
  unfold ofLine at ends ⊢
  cases decoded : decodeText? line with
  | none => rfl
  | some text =>
    simp only [decoded] at ends ⊢
    by_cases blank : isBlank text = true
    · rw [if_pos blank, if_pos blank]
    · rw [if_neg blank] at ends ⊢
      have evaluationEnds : evaluate depth text .empty ≠ .exhausted := by
        intro exhausted
        simp [exhausted, answer?] at ends
      rw [if_neg blank, evaluate_eq_of_le within evaluationEnds]

/-- So is a session over any number of lines. -/
theorem ofLines_eq_of_le (within : depth ≤ deeper)
    (ends : (ofLines depth lines).ending ≠ .exhausted) :
    ofLines deeper lines = ofLines depth lines := by
  induction lines with
  | nil => rfl
  | cons line lines ih =>
    rw [ofLines_cons] at ends
    rw [ofLines_cons, ofLines_cons]
    by_cases lineEnded : (ofLine depth line).ending = .value ()
    · have lineEnds : (ofLine depth line).ending ≠ .exhausted := by simp [lineEnded]
      rw [andThen_of_value lineEnded] at ends
      rw [ofLine_eq_of_le within lineEnds, ih ends]
    · rw [andThen_of_ne_value lineEnded] at ends
      rw [ofLine_eq_of_le within ends, andThen_of_ne_value lineEnded,
        andThen_of_ne_value lineEnded]

/-- The session over the input ends, once its bound is large enough, and leaves this transcript. -/
def Records (transcript : Transcript) (input : List UInt8) : Prop :=
  transcript.ending ≠ .exhausted ∧ ∃ depth, ofInput depth input = transcript

/-- What a session leaves, it leaves under every bound that is large enough. -/
theorem Records.exists_forall_ge {transcript : Transcript} {input : List UInt8}
    (records : transcript.Records input) :
    ∃ depth, ∀ deeper, depth ≤ deeper → ofInput deeper input = transcript := by
  obtain ⟨ends, depth, rfl⟩ := records
  exact ⟨depth, fun deeper within => ofLines_eq_of_le within ends⟩

/-- A session over an input leaves one transcript only. -/
theorem Records.unique {transcript other : Transcript} {input : List UInt8}
    (records : transcript.Records input) (otherRecords : other.Records input) :
    transcript = other := by
  obtain ⟨depth, same⟩ := records.exists_forall_ge
  obtain ⟨otherDepth, otherSame⟩ := otherRecords.exists_forall_ge
  rw [← same (max depth otherDepth) (by omega), otherSame (max depth otherDepth) (by omega)]

end Transcript

/-- Lines are independent. Let a session end over a stream that is empty or ends with a line feed.
If it ends well, the session over the stream with another one behind it ends exactly when the
session over the other one does; it writes the output of the first and then that of the second, and
has the ending of the second. If it ends with an error, whatever stands behind the stream changes
neither its output nor its ending. -/
theorem lines_are_independent {first : List UInt8}
    (closed : first = [] ∨ first.getLast? = some lineFeed) (second : List UInt8)
    {transcript : Transcript} (records : transcript.Records first) :
    (transcript.ending = .value () → ∀ whole : Transcript,
      whole.Records (first ++ second) ↔
        ∃ other : Transcript, other.Records second ∧
          whole = ⟨transcript.output ++ other.output, other.ending⟩) ∧
    ∀ cause, transcript.ending = .error cause → ∀ whole : Transcript,
      whole.Records (first ++ second) ↔ whole = transcript := by
  obtain ⟨depth, session⟩ := records.exists_forall_ge
  have append (deeper : Nat) (within : depth ≤ deeper) :
      Transcript.ofInput deeper (first ++ second) =
        transcript.andThen (Transcript.ofInput deeper second) := by
    rw [Transcript.ofInput_append closed, session deeper within]
  constructor
  · intro ended whole
    simp only [Transcript.andThen_of_value ended] at append
    constructor
    · intro wholeRecords
      obtain ⟨wholeDepth, wholeSession⟩ := wholeRecords.exists_forall_ge
      let deeper := max depth wholeDepth
      have same := wholeSession deeper (by omega)
      rw [append deeper (by omega)] at same
      have ends := wholeRecords.1
      rw [← same] at ends
      exact ⟨Transcript.ofInput deeper second, ⟨ends, deeper, rfl⟩, same.symm⟩
    · rintro ⟨other, otherRecords, rfl⟩
      obtain ⟨otherDepth, otherSession⟩ := otherRecords.exists_forall_ge
      let deeper := max depth otherDepth
      refine ⟨otherRecords.1, deeper, ?_⟩
      rw [append deeper (by omega), otherSession deeper (by omega)]
  · intro cause ended whole
    have same := append depth (by omega)
    rw [Transcript.andThen_of_ne_value (by simp [ended])] at same
    have sameRecords : transcript.Records (first ++ second) := ⟨records.1, depth, same⟩
    constructor
    · intro wholeRecords
      exact wholeRecords.unique sameRecords
    · rintro rfl
      exact sameRecords

/-- A value and an error with a blank line between them, a text without a line feed behind them, and
a line that is not UTF-8. -/
theorem lines_are_independent_mixed :
    let first : List UInt8 := encodeText "(\\x.x)\r\n \ny\n"
    let second : List UInt8 := encodeText "(\\x"
    let invalid : List UInt8 := [0xFF, lineFeed]
    Transcript.Records
      ⟨"< (\\x.x)\neval error: undefined variable: y\n", .value ()⟩ first ∧
    Transcript.Records
      ⟨"< (\\x.x)\neval error: undefined variable: y\n" ++
        "parse error: expected '.', got end-of-input\n", .value ()⟩ (first ++ second) ∧
    Transcript.Records
      ⟨"< (\\x.x)\neval error: undefined variable: y\n", .error (.inputFile .invalidText)⟩
      (first ++ (invalid ++ second)) := by
  intro first second invalid
  have firstRecords : Transcript.Records
      ⟨"< (\\x.x)\neval error: undefined variable: y\n", .value ()⟩ first :=
    ⟨by simp, 1, rfl⟩
  have secondRecords : Transcript.Records
      ⟨"parse error: expected '.', got end-of-input\n", .value ()⟩ second := ⟨by simp, 1, rfl⟩
  have invalidRecords : Transcript.Records ⟨"", .error (.inputFile .invalidText)⟩ invalid :=
    ⟨by simp, 1, rfl⟩
  have goesOn := (lines_are_independent (.inr rfl) second firstRecords).1 rfl
  have ended := (lines_are_independent (.inr rfl) second invalidRecords).2 _ rfl
  have stops := (lines_are_independent (.inr rfl) (invalid ++ second) firstRecords).1 rfl
  exact ⟨firstRecords, (goesOn _).mpr ⟨_, secondRecords, rfl⟩,
    (stops _).mpr ⟨_, (ended _).mpr rfl, rfl⟩⟩

end LambdaTutor
