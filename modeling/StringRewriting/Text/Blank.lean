import StringRewriting.Text.Ranges

/-!
# Blank symbols

The symbols with the Unicode property White_Space. They are what the end of a line may carry without
meaning. The zero width space and the byte order mark are not among them.
-/

namespace StringRewriting

/-- The code points with the property White_Space. -/
def blankRanges : List (Nat × Nat) :=
  [(0x09, 0x0d), (0x20, 0x20), (0x85, 0x85), (0xa0, 0xa0), (0x1680, 0x1680), (0x2000, 0x200a),
    (0x2028, 0x2029), (0x202f, 0x202f), (0x205f, 0x205f), (0x3000, 0x3000)]

/-- Whether a symbol is white space. -/
def isBlank (c : Char) : Bool :=
  Ranges.mem c.toNat blankRanges

end StringRewriting
