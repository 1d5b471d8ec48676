import LambdaTutor.Closure.Readback
import LambdaTutor.RunError

/-!
# Transcripts

A session answers every line that is not blank with one line of its own: the value of the line in
the empty environment, or the message of its error. Lines do not see each other. A line that is
not UTF-8 ends the session; what was written before it stays.
-/

namespace LambdaTutor

/-- What a session wrote and how it ended. -/
structure Transcript where
  output : String
  ending : Outcome RunError Unit
deriving DecidableEq

/-- The answer to a line, or nothing for a line whose value was not found within the bound. -/
def answer? : Outcome SourceError Closure → Option String
  | .value closure => some ("< " ++ closure.display ++ "\n")
  | .error cause => some (cause.message ++ "\n")
  | .exhausted => none

namespace Transcript

/-- A session without lines. -/
def empty : Transcript := ⟨"", .value ()⟩

/-- The session that consists of one line. -/
def ofLine (depth : Nat) (line : List UInt8) : Transcript :=
  match decodeText? line with
  | none => ⟨"", .error (.inputFile .invalidText)⟩
  | some text =>
    if isBlank text then empty
    else match answer? (evaluate depth text .empty) with
      | some answer => ⟨answer, .value ()⟩
      | none => ⟨"", .exhausted⟩

/-- The session that had already written a text. -/
def prepend (output : String) (transcript : Transcript) : Transcript :=
  ⟨output ++ transcript.output, transcript.ending⟩

/-- The session over a list of lines: it goes on while its lines end well. -/
def ofLines (depth : Nat) : List (List UInt8) → Transcript
  | [] => empty
  | line :: rest =>
    match ofLine depth line with
    | ⟨output, .value ()⟩ => (ofLines depth rest).prepend output
    | stopped => stopped

/-- The session over the lines of a byte stream. -/
def ofInput (depth : Nat) (input : List UInt8) : Transcript :=
  ofLines depth (splitLines input)

end Transcript

end LambdaTutor
