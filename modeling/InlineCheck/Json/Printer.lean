import InlineCheck.Decimal.Layout
import InlineCheck.Json.Value

/-!
# Written JSON

The two written forms of a value: `compact` without any blank, and `pretty` with every item
and member on a line of its own, indented by two spaces a level, empty containers excepted.

Strings are written between quotes; the quote, the backslash and the control characters are
escaped and all other characters stand for themselves.
-/

namespace InlineCheck.Json

/-- Floating-point numbers are positional from `1e-5` up to but not including `1e16`, and a
positive exponent has a sign. -/
def numberLayout : Decimal.Layout :=
  { positionalBelow := 16, positionalFrom := -5, plus := "+" }

/-- The written form of a number. -/
def Number.write : Number → String
  | .whole n => toString n
  | .float x => Decimal.write numberLayout x

/-- The two lower-case hexadecimal digits of a number below 256. -/
def hexByte (n : Nat) : List Char :=
  [Nat.digitChar (n / 16), Nat.digitChar (n % 16)]

/-- A character as it stands between the quotes of a string. -/
def escape (c : Char) : List Char :=
  match c with
  | '"' => ['\\', '"']
  | '\\' => ['\\', '\\']
  | '\n' => ['\\', 'n']
  | '\r' => ['\\', 'r']
  | '\t' => ['\\', 't']
  | '\x08' => ['\\', 'b']
  | '\x0c' => ['\\', 'f']
  | c => if c.toNat < 0x20 then ['\\', 'u', '0', '0'] ++ hexByte c.toNat else [c]

/-- The written form of a string. -/
def writeText (text : String) : List Char :=
  '"' :: text.toList.flatMap escape ++ ['"']

namespace Value

mutual

/-- The characters of a value without any blank. -/
def compactChars : Value → List Char
  | .null => ['n', 'u', 'l', 'l']
  | .bool true => ['t', 'r', 'u', 'e']
  | .bool false => ['f', 'a', 'l', 's', 'e']
  | .number n => n.write.toList
  | .string text => writeText text
  | .array items => '[' :: compactItems items
  | .object members => '\x7b' :: compactMembers members

/-- The items of an array and its closing bracket. -/
def compactItems : List Value → List Char
  | [] => [']']
  | [v] => v.compactChars ++ [']']
  | v :: w :: rest => v.compactChars ++ ',' :: compactItems (w :: rest)

/-- The members of an object and its closing brace. -/
def compactMembers : List (String × Value) → List Char
  | [] => ['\x7d']
  | [(name, v)] => writeText name ++ ':' :: v.compactChars ++ ['\x7d']
  | (name, v) :: m :: rest =>
    writeText name ++ ':' :: v.compactChars ++ ',' :: compactMembers (m :: rest)

end

/-- The value on one line, without any blank. -/
def compact (v : Value) : String :=
  String.ofList v.compactChars

/-- A new line at an indentation level. -/
def newLine (level : Nat) : List Char :=
  '\n' :: List.replicate (2 * level) ' '

mutual

/-- The characters of a value whose closing bracket stands at the given level. -/
def prettyChars (level : Nat) : Value → List Char
  | .array (v :: rest) => '[' :: prettyItems level (v :: rest)
  | .object (m :: rest) => '\x7b' :: prettyMembers level (m :: rest)
  | .array [] => ['[', ']']
  | .object [] => ['\x7b', '\x7d']
  | .null => compactChars .null
  | .bool b => compactChars (.bool b)
  | .number n => compactChars (.number n)
  | .string text => compactChars (.string text)

/-- The items of an array, each on a new line, and its closing bracket. -/
def prettyItems (level : Nat) : List Value → List Char
  | [] => [']']
  | [v] => newLine (level + 1) ++ v.prettyChars (level + 1) ++ newLine level ++ [']']
  | v :: w :: rest =>
    newLine (level + 1) ++ v.prettyChars (level + 1) ++ ',' :: prettyItems level (w :: rest)

/-- The members of an object, each on a new line, and its closing brace. -/
def prettyMembers (level : Nat) : List (String × Value) → List Char
  | [] => ['\x7d']
  | [(name, v)] =>
    newLine (level + 1) ++ writeText name ++ ':' :: ' ' :: v.prettyChars (level + 1) ++
      newLine level ++ ['\x7d']
  | (name, v) :: m :: rest =>
    newLine (level + 1) ++ writeText name ++ ':' :: ' ' :: v.prettyChars (level + 1) ++
      ',' :: prettyMembers level (m :: rest)

end

/-- The value with every item and member on a line of its own. -/
def pretty (v : Value) : String :=
  String.ofList (v.prettyChars 0)

end Value

end InlineCheck.Json
