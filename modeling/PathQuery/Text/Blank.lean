import PathQuery.Text.Ranges
/-!
# White space

The characters with the Unicode property `White_Space`, and trimming by it. Core's
`Char.isWhitespace` knows only the ASCII ones among them, and not all of those.
-/

namespace PathQuery.Text

/-- The ranges of `White_Space`. -/
def blankRanges : Ranges :=
  [(0x09, 0x0D), (0x20, 0x20), (0x85, 0x85), (0xA0, 0xA0), (0x1680, 0x1680), (0x2000, 0x200A),
    (0x2028, 0x2029), (0x202F, 0x202F), (0x205F, 0x205F), (0x3000, 0x3000)]

def isBlank (c : Char) : Bool :=
  inRanges c.toNat blankRanges

/-- The text without the white space at both of its ends. -/
def trim (text : String) : String :=
  String.ofList ((text.toList.dropWhile isBlank).reverse.dropWhile isBlank).reverse

end PathQuery.Text
