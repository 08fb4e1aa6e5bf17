import LineCalculator.Text.CodeRange

/-!
# Blank characters

The characters that separate words and count for nothing else: the space
separators, and the control characters that the bidirectional algorithm treats
as white space or as separators of paragraphs and segments.  A zero-width space
is not among them, since it takes no room.
-/

namespace LineCalculator

namespace Text

/-- The ranges of blank characters. -/
def blankRanges : List (Nat × Nat) :=
  [(0x9, 0xd), (0x1c, 0x20), (0x85, 0x85), (0xa0, 0xa0), (0x1680, 0x1680), (0x2000, 0x200a),
   (0x2028, 0x2029), (0x202f, 0x202f), (0x205f, 0x205f), (0x3000, 0x3000)]

/-- Whether a character is blank. -/
def isBlank (c : Char) : Bool := inRanges blankRanges c.toNat

end Text

end LineCalculator
