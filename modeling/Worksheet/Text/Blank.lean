import Worksheet.Text.Ranges

/-!
# White space

The characters that Unicode gives the bidirectional class of a separator or
white space, or the category of a space: the five control characters from the
tab on, the four information separators before the blank, and the spaces of
other scripts.
-/

namespace Worksheet

/-- The ranges of white space. -/
def blankRanges : List CodeRange :=
  [(0x0009, 0x000D), (0x001C, 0x0020), (0x0085, 0x0085), (0x00A0, 0x00A0), (0x1680, 0x1680),
   (0x2000, 0x200A), (0x2028, 0x2029), (0x202F, 0x202F), (0x205F, 0x205F), (0x3000, 0x3000)]

/-- White space. -/
def isBlank (c : Char) : Bool := inRanges blankRanges c

end Worksheet
