/-!
# Blank characters

Which characters separate the words of a condition, and what is left of a text when they are
taken off both its ends. The class is the Unicode property `White_Space`, so a no-break space
or an ideographic space separates words as well as a plain one does.
-/

namespace Criterion

/-- The 25 characters with the Unicode property `White_Space`. -/
def isBlank (c : Char) : Bool :=
  let n := c.toNat
  (0x09 ≤ n && n ≤ 0x0D) || n == 0x20 || n == 0x85 || n == 0xA0 || n == 0x1680 ||
    (0x2000 ≤ n && n ≤ 0x200A) || n == 0x2028 || n == 0x2029 || n == 0x202F || n == 0x205F ||
    n == 0x3000

def trimBlanks (cs : List Char) : List Char :=
  ((cs.dropWhile isBlank).reverse.dropWhile isBlank).reverse

/-- The text without the blank characters at its two ends. -/
def trim (text : String) : String := String.ofList (trimBlanks text.toList)

/-- Does the text hold blank characters only? The empty text does. -/
def isBlankText (text : String) : Bool := text.toList.all isBlank

end Criterion
