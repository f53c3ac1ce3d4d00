/-!
# Blank characters

The characters that Unicode counts as white space, and the two questions asked about them:
whether a text holds nothing else (`isBlankText`), and what is left of a text once they are
cut off both ends (`trim`).
-/

namespace InlineCheck.Text

/-- Whether Unicode counts the character as white space. -/
def isBlank (c : Char) : Bool :=
  let n := c.toNat
  (0x9 ≤ n && n ≤ 0xD) || n == 0x20 || n == 0x85 || n == 0xA0 || n == 0x1680 ||
    (0x2000 ≤ n && n ≤ 0x200A) || n == 0x2028 || n == 0x2029 || n == 0x202F || n == 0x205F ||
    n == 0x3000

/-- Whether every character of the text is blank; true of the empty text. -/
def isBlankText (text : String) : Bool :=
  text.toList.all isBlank

/-- The characters left once the blank ones are cut off both ends. -/
def trimChars (cs : List Char) : List Char :=
  ((cs.dropWhile isBlank).reverse.dropWhile isBlank).reverse

/-- The text left once the blank characters are cut off both ends. -/
def trim (text : String) : String :=
  String.ofList (trimChars text.toList)

end InlineCheck.Text
