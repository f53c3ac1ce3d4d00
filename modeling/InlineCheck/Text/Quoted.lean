import InlineCheck.Text.Standalone

/-!
# Quoted text in messages

A text is quoted for a message between double quotes.  The quote and the backslash get a
backslash, four controls have short forms, and every other character that does not stand for
itself is written as its code point in braces.
-/

namespace InlineCheck.Text

/-- The code point of the character in braces, in lower-case hexadecimal digits. -/
def codePoint (c : Char) : List Char :=
  ['\\', 'u', '\x7b'] ++ Nat.toDigits 16 c.toNat ++ ['\x7d']

/-- A character as it stands in a quoted text. -/
def quoteChar (c : Char) : List Char :=
  match c with
  | '\x00' => ['\\', '0']
  | '\t' => ['\\', 't']
  | '\r' => ['\\', 'r']
  | '\n' => ['\\', 'n']
  | '"' => ['\\', '"']
  | '\\' => ['\\', '\\']
  | c => if standalone c then [c] else codePoint c

/-- The text between double quotes. -/
def quoted (text : String) : String :=
  String.ofList ('"' :: text.toList.flatMap quoteChar ++ ['"'])

end InlineCheck.Text
