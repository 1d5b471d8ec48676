/-!
# Lines of a byte stream

A line ends at a line feed, and a carriage return directly before that line feed belongs to the
ending, not to the line. The last line may lack its line feed; it then keeps every byte. Lines are
cut before they are decoded, so a stream may hold valid and invalid lines side by side.
-/

namespace LambdaTutor

/-- The byte that ends a line. -/
def lineFeed : UInt8 := 0x0A

/-- The byte that may stand before a line feed as part of the line's ending. -/
def carriageReturn : UInt8 := 0x0D

/-- Puts a byte in front of the first line, which it opens if there is none. -/
def consToFirstLine (byte : UInt8) : List (List UInt8) → List (List UInt8)
  | [] => [[byte]]
  | line :: rest => (byte :: line) :: rest

/-- The lines of a byte stream, without their endings. An empty stream has no line. -/
def splitLines : List UInt8 → List (List UInt8)
  | [] => []
  | byte :: rest =>
    if byte = lineFeed then [] :: splitLines rest
    else if byte = carriageReturn ∧ rest.head? = some lineFeed then splitLines rest
    else consToFirstLine byte (splitLines rest)

/-- The text that a byte sequence encodes in UTF-8, if it encodes one. -/
def decodeText? (bytes : List UInt8) : Option String :=
  String.fromUTF8? ⟨bytes.toArray⟩

/-- The UTF-8 encoding of a text. -/
def encodeText (text : String) : List UInt8 :=
  text.toByteArray.data.toList

end LambdaTutor
