/-!
# Blank characters

White space around a locale tag or an attribute value carries no meaning. *Blank* is the
Unicode property `White_Space`, which is wider than ASCII: a no-break space or an
ideographic space around a tag is dropped like a plain one.

- `isBlank`: the property, as its list of code points.
- `trim`: a text without the blanks at its two ends.
-/

namespace Phrasebook.Text

/-- The characters with the Unicode property `White_Space`. -/
def isBlank (c : Char) : Bool :=
  let n := c.toNat
  (0x09 ≤ n && n ≤ 0x0d) || n == 0x20 || n == 0x85 || n == 0xa0 || n == 0x1680 ||
    (0x2000 ≤ n && n ≤ 0x200a) || n == 0x2028 || n == 0x2029 || n == 0x202f ||
    n == 0x205f || n == 0x3000

/-- Drops the blanks at both ends of a list of characters. -/
def trimBlanks (cs : List Char) : List Char :=
  ((cs.dropWhile isBlank).reverse.dropWhile isBlank).reverse

/-- Drops the blanks at both ends of a text. -/
def trim (s : String) : String :=
  String.ofList (trimBlanks s.toList)

end Phrasebook.Text
