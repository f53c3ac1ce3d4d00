import InlineCheck.Json.Fault

/-!
# Reading strings

A string is read character by character, from behind its opening quote.  `Quote.step` says for
each character whether the string goes on, is closed, or is refused.

A code point above `FFFF` is written as two hexadecimal escapes, a high surrogate and a low
one; a surrogate that stands alone is refused.  A string that is only passed over needs four
hexadecimal digits in such an escape, whatever they stand for.

Four bytes belong to a hexadecimal escape, whichever characters they are part of.  If a
character among them is no digit, the refusal comes behind the four bytes, so `spoiled` first
passes over the rest of them: the end of the text comes before it.
-/

namespace InlineCheck.Json

/-- Where in a string a reader stands. -/
inductive Quote.Phase
  /-- Between two characters of the text. -/
  | plain
  /-- Behind a backslash. -/
  | escape
  /-- In a hexadecimal escape with `left` digits to come.  `high` is the high surrogate in
  front of it. -/
  | hex (left value : Nat) (high : Option Nat)
  /-- Behind a high surrogate. -/
  | surrogate (high : Nat)
  /-- Behind a high surrogate and a backslash. -/
  | surrogateEscape (high : Nat)
  /-- In a hexadecimal escape with a bad digit, `left` bytes in front of its end. -/
  | spoiled (left : Nat)
deriving DecidableEq, Repr

/-- A string of which some characters were read. -/
structure Quote where
  /-- Whether the text is kept; if not, the string is only passed over. -/
  kept : Bool
  /-- The text so far, last character first. -/
  gathered : List Char
  phase : Quote.Phase
deriving DecidableEq, Repr

/-- What a further character does to a string. -/
inductive Quote.Next
  | more (q : Quote)
  | closed (text : String)

namespace Quote

/-- The string behind its opening quote. -/
def start (kept : Bool) : Quote := ⟨kept, [], .plain⟩

/-- The string behind one more character of its text. -/
def push (q : Quote) (c : Char) : Quote :=
  ⟨q.kept, if q.kept then c :: q.gathered else [], .plain⟩

/-- The string in another phase. -/
def turn (q : Quote) (phase : Phase) : Quote := { q with phase }

/-- The value of a hexadecimal digit. -/
def hexDigit? (c : Char) : Option Nat :=
  if '0' ≤ c ∧ c ≤ '9' then some (c.toNat - '0'.toNat)
  else if 'a' ≤ c ∧ c ≤ 'f' then some (c.toNat - 'a'.toNat + 10)
  else if 'A' ≤ c ∧ c ≤ 'F' then some (c.toNat - 'A'.toNat + 10)
  else none

/-- The character that a letter behind a backslash stands for. -/
def short? (c : Char) : Option Char :=
  match c with
  | '"' => some '"'
  | '\\' => some '\\'
  | '/' => some '/'
  | 'b' => some '\x08'
  | 'f' => some '\x0c'
  | 'n' => some '\n'
  | 'r' => some '\r'
  | 't' => some '\t'
  | _ => none

/-- Whether a code unit is a high surrogate. -/
def isHigh (n : Nat) : Bool := 0xD800 ≤ n && n ≤ 0xDBFF

/-- Whether a code unit is a low surrogate. -/
def isLow (n : Nat) : Bool := 0xDC00 ≤ n && n ≤ 0xDFFF

/-- The code point of two surrogates. -/
def combine (high low : Nat) : Nat :=
  0x10000 + (high - 0xD800) * 0x400 + (low - 0xDC00)

/-- The string behind a whole hexadecimal escape. -/
def closeHex (q : Quote) (value : Nat) (high : Option Nat) : Except Refusal Quote :=
  if q.kept then
    match high with
    | some h =>
      if isLow value then .ok (q.push (Char.ofNat (combine h value)))
      else .error (.after .loneSurrogate)
    | none =>
      if isLow value then .error (.after .loneSurrogate)
      else if isHigh value then .ok (q.turn (.surrogate value))
      else .ok (q.push (Char.ofNat value))
  else .ok (q.turn .plain)

/-- Passes over a character of a spoiled escape, of which `left` bytes are to come. -/
def spoil (q : Quote) (left : Nat) (c : Char) : Except Refusal Quote :=
  if left ≤ c.utf8Size then .error ⟨.invalidEscape, left⟩
  else .ok (q.turn (.spoiled (left - c.utf8Size)))

/-- The string behind a further character. -/
def step (q : Quote) (c : Char) : Except Refusal Next :=
  match q.phase with
  | .plain =>
    if c = '"' then .ok (.closed (String.ofList q.gathered.reverse))
    else if c = '\\' then .ok (.more (q.turn .escape))
    else if c.toNat < 0x20 then .error ⟨.controlCharacter, if q.kept then 1 else 0⟩
    else .ok (.more (q.push c))
  | .escape =>
    if c = 'u' then .ok (.more (q.turn (.hex 4 0 none)))
    else match short? c with
      | some d => .ok (.more (q.push d))
      | none => .error (.after .invalidEscape)
  | .hex left value high =>
    match hexDigit? c with
    | none => (q.spoil left c).map .more
    | some d =>
      if left ≤ 1 then (q.closeHex (value * 16 + d) high).map .more
      else .ok (.more (q.turn (.hex (left - 1) (value * 16 + d) high)))
  | .surrogate high =>
    if c = '\\' then .ok (.more (q.turn (.surrogateEscape high)))
    else .error (.after .surrogateNotFollowed)
  | .surrogateEscape high =>
    if c = 'u' then .ok (.more (q.turn (.hex 4 0 (some high))))
    else .error (.after .surrogateNotFollowed)
  | .spoiled left => (q.spoil left c).map .more

end Quote

end InlineCheck.Json
