import InlineCheck.Json.Fault

/-!
# Reading numbers

A number is read digit by digit.  `Numeral.step` says for each character whether the number
goes on with it, ends in front of it, or is refused; `Numeral.value` gives the number read.

The digits are gathered in a significand below `2 ^ 64`.  Once the next digit would not fit,
the remaining ones are not gathered any more: each digit before the point adds one to the
decimal exponent instead, and each digit behind it is passed over.

A number that is only passed over follows the same grammar, but its size is not looked at.
-/

namespace InlineCheck.Json

/-- How far a number was read; `n` is its significand and `e` its decimal exponent. -/
inductive Numeral.Phase
  /-- Behind the minus sign. -/
  | sign
  /-- Behind a leading zero. -/
  | zero
  /-- Behind digits that all fit. -/
  | whole (n : Nat)
  /-- Behind digits of which the last `e` did not fit. -/
  | long (n e : Nat)
  /-- Behind the decimal point. -/
  | point (n e : Nat)
  /-- Behind a digit after the point. -/
  | fraction (n : Nat) (e : Int)
  /-- Behind a digit after the point that did not fit. -/
  | full (n : Nat) (e : Int)
  /-- Behind the `e` of the exponent. -/
  | mark (n : Nat) (e : Int)
  /-- Behind the sign of the exponent. -/
  | powerSign (n : Nat) (e : Int) (negative : Bool)
  /-- Behind a digit of the exponent. -/
  | power (n : Nat) (e : Int) (negative : Bool) (digits : Nat)
  /-- Behind more digits of the exponent than are ever gathered: the number is zero. -/
  | vanished
deriving DecidableEq, Repr

/-- A number of which some characters were read. -/
structure Numeral where
  negative : Bool
  phase : Numeral.Phase
deriving DecidableEq, Repr

namespace Numeral

/-- One more than the greatest significand: `2 ^ 64`. -/
def limit : Nat := 0x10000000000000000

/-- The greatest written exponent: `2 ^ 31 - 1`. -/
def maxPower : Nat := 0x7FFFFFFF

/-- The value of a decimal digit. -/
def digit? (c : Char) : Option Nat :=
  if '0' ≤ c ∧ c ≤ '9' then some (c.toNat - '0'.toNat) else none

/-- The number that begins with the character. -/
def start? (c : Char) : Option Numeral :=
  if c = '-' then some ⟨true, .sign⟩
  else match digit? c with
    | some 0 => some ⟨false, .zero⟩
    | some d => some ⟨false, .whole d⟩
    | none => none

/-- What comes behind a significand: a point if `point` says where it leads, an exponent, or
the end of the number. -/
def tail (point : Option Phase) (n : Nat) (e : Int) (c : Char) : Option Phase :=
  if c = '.' then point
  else if c = 'e' ∨ c = 'E' then some (.mark n e)
  else none

/-- The phase behind a further character, or none if the number ends in front of it.  `kept`
says whether the number is kept or only passed over. -/
def Phase.step (kept : Bool) (p : Phase) (c : Char) : Except Refusal (Option Phase) :=
  match p with
  | .sign =>
    match digit? c with
    | some 0 => .ok (some .zero)
    | some d => .ok (some (.whole d))
    | none => .error (.after .invalidNumber)
  | .zero =>
    match digit? c with
    | some _ => .error (.after .invalidNumber)
    | none => .ok (tail (some (.point 0 0)) 0 0 c)
  | .whole n =>
    match digit? c with
    | some d =>
      if n * 10 + d < limit then .ok (some (.whole (n * 10 + d))) else .ok (some (.long n 1))
    | none => .ok (tail (some (.point n 0)) n 0 c)
  | .long n e =>
    match digit? c with
    | some _ => .ok (some (.long n (e + 1)))
    | none => .ok (tail (some (.point n e)) n e c)
  | .point n e =>
    match digit? c with
    | some d =>
      if n * 10 + d < limit then .ok (some (.fraction (n * 10 + d) (e - 1)))
      else .ok (some (.full n e))
    | none => .error (.after .invalidNumber)
  | .fraction n e =>
    match digit? c with
    | some d =>
      if n * 10 + d < limit then .ok (some (.fraction (n * 10 + d) (e - 1)))
      else .ok (some (.full n e))
    | none => .ok (tail none n e c)
  | .full n e =>
    match digit? c with
    | some _ => .ok (some (.full n e))
    | none => .ok (tail none n e c)
  | .mark n e =>
    if c = '+' then .ok (some (.powerSign n e false))
    else if c = '-' then .ok (some (.powerSign n e true))
    else match digit? c with
      | some d => .ok (some (.power n e false d))
      | none => .error (.after .invalidNumber)
  | .powerSign n e negative =>
    match digit? c with
    | some d => .ok (some (.power n e negative d))
    | none => .error (.after .invalidNumber)
  | .power n e negative digits =>
    match digit? c with
    | some d =>
      if digits * 10 + d ≤ maxPower then .ok (some (.power n e negative (digits * 10 + d)))
      else if kept && !negative && n != 0 then .error (.after .numberOutOfRange)
      else .ok (some .vanished)
    | none => .ok none
  | .vanished =>
    match digit? c with
    | some _ => .ok (some .vanished)
    | none => .ok none

/-- The number behind a further character, or none if it ends in front of it. -/
def step (kept : Bool) (n : Numeral) (c : Char) : Except Refusal (Option Numeral) :=
  (n.phase.step kept c).map fun next => next.map fun p => ⟨n.negative, p⟩

/-- Why the number cannot end where it stands, if it cannot. -/
def unfinished? (kept : Bool) (n : Numeral) : Option Cause :=
  match n.phase with
  | .sign | .point .. | .mark .. | .powerSign .. =>
    some (if kept then .endInValue else .invalidNumber)
  | _ => none

/-- The greatest exponent of a power of ten that is a finite floating-point number. -/
def maxPlaces : Nat := 308

/-- The nearest floating-point number to `10 ^ places`. -/
def powerOfTen (places : Nat) : Float :=
  Float.ofScientific 1 false places

/-- Divides by `10 ^ places`, by no more than `10 ^ maxPlaces` at a time, until nothing is
left. -/
def divide (x : Float) (places : Nat) : Float :=
  if places ≤ maxPlaces then x / powerOfTen places
  else if x == 0 then x
  else divide (x / powerOfTen maxPlaces) (places - maxPlaces)
termination_by places
decreasing_by
  have : 0 < maxPlaces := by decide
  omega

/-- `n * 10 ^ e`, unless that is too great.  The significand is rounded first and the product
or quotient once more, so the result need not be the nearest number. -/
def scale? (n : Nat) (e : Int) : Option Float :=
  let x := n.toUInt64.toFloat
  match e with
  | .ofNat places =>
    if places ≤ maxPlaces then
      let y := x * powerOfTen places
      if y.isInf then none else some y
    else if n = 0 then some x else none
  | .negSucc places => some (divide x (places + 1))

/-- The number `n * 10 ^ e` with the sign of the numeral. -/
def float (n : Numeral) (significand : Nat) (e : Int) : Except Cause Number :=
  match scale? significand e with
  | some x => .ok (.float (if n.negative then -x else x))
  | none => .error .numberOutOfRange

/-- The magnitude of the least negative whole number: `2 ^ 63`. -/
def negativeLimit : Nat := 0x8000000000000000

/-- A whole number; a negative one that is zero or below `-2 ^ 63` becomes floating-point. -/
def integer (negative : Bool) (n : Nat) : Number :=
  if negative then
    if 0 < n ∧ n ≤ negativeLimit then .whole (-(n : Int)) else .float (-n.toUInt64.toFloat)
  else .whole n

/-- The number read. -/
def value (n : Numeral) : Except Cause Number :=
  match n.phase with
  | .zero => .ok (integer n.negative 0)
  | .whole d => .ok (integer n.negative d)
  | .long d e => n.float d e
  | .fraction d e => n.float d e
  | .full d e => n.float d e
  | .power d e negative digits => n.float d (if negative then e - digits else e + digits)
  | .vanished => .ok (.float (if n.negative then -0.0 else 0.0))
  | .sign | .point .. | .mark .. | .powerSign .. => .error .endInValue

end Numeral

end InlineCheck.Json
