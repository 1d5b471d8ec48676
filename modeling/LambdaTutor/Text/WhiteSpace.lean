/-!
# White space

The Unicode property `White_Space` as a table of code point ranges. The lexer separates tokens
by it and the transcript skips lines that hold nothing else, so both read this one table.
-/

namespace LambdaTutor

/-- The inclusive code point ranges of the property `White_Space`, in increasing order. -/
def whiteSpaceRanges : List (Nat × Nat) :=
  [(0x0009, 0x000D), (0x0020, 0x0020), (0x0085, 0x0085), (0x00A0, 0x00A0), (0x1680, 0x1680),
   (0x2000, 0x200A), (0x2028, 0x2029), (0x202F, 0x202F), (0x205F, 0x205F), (0x3000, 0x3000)]

/-- A character is white space when one of the ranges holds its code point. -/
def isWhiteSpace (c : Char) : Bool :=
  whiteSpaceRanges.any fun (first, last) => first ≤ c.toNat && c.toNat ≤ last

/-- A text is blank when it holds white space only. -/
def isBlank (text : String) : Bool :=
  text.toList.all isWhiteSpace

/-- The table's ranges are disjoint and stand in increasing order. -/
example : (whiteSpaceRanges.zip whiteSpaceRanges.tail).all (fun (a, b) => a.2 < b.1) = true := by
  decide

end LambdaTutor
