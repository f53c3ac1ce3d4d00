import InlineCheck.Decimal.Shortest

/-!
# Decimal layout

How the digits of a number are written: positionally as long as the decimal point stands near
the digits, otherwise with one digit before the point and an exponent.
-/

namespace InlineCheck.Decimal

/-- The decisions of a decimal format. -/
structure Layout where
  /-- Numbers below `10 ^ positionalBelow` have no exponent. -/
  positionalBelow : Int
  /-- Numbers of at least `10 ^ positionalFrom` have no exponent. -/
  positionalFrom : Int
  /-- What stands before an exponent that is not negative. -/
  plus : String

/-- `n` zeros. -/
def zeros (n : Nat) : String :=
  String.ofList (List.replicate n '0')

/-- Writes the digits positionally; a whole number gets `.0`. -/
def Digits.positional (d : Digits) : String :=
  let text := toString d.digits
  let places := (-d.exponent).toNat
  if 0 ≤ d.exponent then text ++ zeros d.exponent.toNat ++ ".0"
  else if places < text.length then
    String.ofList (text.toList.take (text.length - places)) ++ "." ++
      String.ofList (text.toList.drop (text.length - places))
  else "0." ++ zeros (places - text.length) ++ text

/-- Writes the digits with one digit before the point and an exponent. -/
def Digits.scientific (layout : Layout) (d : Digits) : String :=
  let text := toString d.digits
  let power := d.exponent + text.length - 1
  let fraction := if text.length = 1 then "" else "." ++ String.ofList (text.toList.drop 1)
  let mark := if power < 0 then "e-" else "e" ++ layout.plus
  String.ofList (text.toList.take 1) ++ fraction ++ mark ++ toString power.natAbs

/-- Writes the digits as the layout says. -/
def Digits.write (layout : Layout) (d : Digits) : String :=
  let power := d.exponent + width d.digits - 1
  if layout.positionalFrom ≤ power ∧ power < layout.positionalBelow then d.positional
  else d.scientific layout

/-- The weight of the bit that holds the sign: `2 ^ 63`. -/
def signBit : Nat := 0x8000000000000000

/-- Writes a finite number; a zero keeps its sign. -/
def write (layout : Layout) (x : Float) : String :=
  let bits := x.toBits.toNat
  let magnitude := bits % signBit
  let sign := if bits = magnitude then "" else "-"
  if magnitude = 0 then sign ++ "0.0"
  else sign ++ (shortest (Binary.ofBits magnitude)).write layout

end InlineCheck.Decimal
