/-!
# Blank characters

White space in the sense of Unicode's property `White_Space`, which is wider than that of
`Char.isWhitespace`.

- `isBlank`: is a character white space?
- `trim`: a text without the white space at its two ends.
- `isAllBlank`: does a text hold nothing but white space?
-/

namespace ApprovalFlow.Text

/-- The characters with the property `White_Space`, as closed ranges in ascending order. -/
def blankRanges : List (Nat × Nat) :=
  [(0x09, 0x0d), (0x20, 0x20), (0x85, 0x85), (0xa0, 0xa0), (0x1680, 0x1680), (0x2000, 0x200a),
   (0x2028, 0x2029), (0x202f, 0x202f), (0x205f, 0x205f), (0x3000, 0x3000)]

/-- Is `c` white space? -/
def isBlank (c : Char) : Bool :=
  blankRanges.any fun r => decide (r.1 ≤ c.toNat) && decide (c.toNat ≤ r.2)

/-- The characters of `cs` from the first that is not blank on. -/
def dropBlank (cs : List Char) : List Char := cs.dropWhile isBlank

/-- The characters of `cs` without the blank ones at its two ends. -/
def trimChars (cs : List Char) : List Char :=
  (dropBlank (dropBlank cs).reverse).reverse

/-- The text without the white space at its two ends. -/
def trim (s : String) : String := String.ofList (trimChars s.toList)

/-- Does the text hold nothing but white space? -/
def isAllBlank (s : String) : Bool := s.toList.all isBlank

end ApprovalFlow.Text
