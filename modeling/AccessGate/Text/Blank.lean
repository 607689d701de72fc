/-!
# White space at the ends of a text

The characters with the Unicode property `White_Space`, and what is left of a text when they are
taken off both ends. A text is blank when nothing is left.
-/

namespace AccessGate.Text

/-- The twenty-five characters with the property `White_Space`. -/
def isBlankChar (c : Char) : Bool :=
  let n := c.toNat
  (9 ≤ n && n ≤ 13) || n == 0x20 || n == 0x85 || n == 0xA0 || n == 0x1680 ||
    (0x2000 ≤ n && n ≤ 0x200A) || n == 0x2028 || n == 0x2029 || n == 0x202F || n == 0x205F ||
    n == 0x3000

/-- A text without the white space at its two ends. -/
def trimmed (s : String) : String :=
  String.ofList
    (((s.toList.dropWhile isBlankChar).reverse.dropWhile isBlankChar).reverse)

/-- A text of nothing but white space. -/
def isBlank (s : String) : Bool := s.toList.all isBlankChar

end AccessGate.Text
