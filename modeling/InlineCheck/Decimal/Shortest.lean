/-!
# Shortest decimals

The fewest decimal digits that read back as a given binary floating-point number.

A positive number is `m * 2 ^ q` for a significand `m`.  The reals that round to it form an
interval around it, which holds its ends exactly if `m` is even.  `shortest` looks at the
decimal grids with 1, 2, ... digits and takes the first grid that has a point in the
interval; of two such points it takes the nearer one.  Only the two neighbours of the number
on a grid can be nearest, so only these are looked at.  All comparisons are made between
natural numbers, after both sides are scaled to integers.
-/

namespace InlineCheck.Decimal

/-- A positive number `significand * 2 ^ exponent`. -/
structure Binary where
  significand : Nat
  exponent : Int
  /-- The next smaller number is only half as far away as the next greater one. -/
  closeBelow : Bool
deriving DecidableEq, Repr

/-- A number `digits * 10 ^ exponent`. -/
structure Digits where
  digits : Nat
  exponent : Int
deriving DecidableEq, Repr

/-- The weight of the leading bit of a significand, which is not stored: `2 ^ 52`. -/
def leadingBit : Nat := 0x10000000000000

/-- The magnitude of a finite, non-zero number, from its bits without the sign. -/
def Binary.ofBits (bits : Nat) : Binary :=
  let fraction := bits % leadingBit
  let scale := bits / leadingBit
  if scale = 0 then ⟨fraction, -1074, false⟩
  else ⟨leadingBit + fraction, (scale : Int) - 1075, fraction == 0 && scale != 1⟩

/-- How many decimal digits a natural number has. -/
def width (n : Nat) : Nat :=
  (Nat.toDigits 10 n).length

/-- The exponent of the leading decimal digit of `num / den`. -/
def leadingExponent (num den : Nat) : Int :=
  if den ≤ num then (width (num / den) : Int) - 1
  else
    let places := width den - width num
    if den ≤ num * Nat.pow 10 places then -(places : Int) else -(places : Int) - 1

/-- A number, its interval and a decimal grid, all as multiples of one unit. -/
structure Grid where
  value : Nat
  low : Nat
  high : Nat
  /-- Whether the ends of the interval belong to it. -/
  closed : Bool
  /-- The distance between two points of the grid. -/
  step : Nat

/-- The grid of multiples of `10 ^ place` around the number.  The unit is chosen so that a
quarter of the number's last binary place and the grid's distance are both whole. -/
def Binary.grid (b : Binary) (place : Int) : Grid :=
  let quarter := b.exponent - 2
  let scale := Nat.pow 2 quarter.toNat * Nat.pow 10 (-place).toNat
  let m := b.significand
  { value := 4 * m * scale
    low := (if b.closeBelow then 4 * m - 1 else 4 * m - 2) * scale
    high := (4 * m + 2) * scale
    closed := m % 2 == 0
    step := Nat.pow 10 place.toNat * Nat.pow 2 (-quarter).toNat }

/-- Whether the point `d` of the grid rounds to the number. -/
def Grid.holds (g : Grid) (d : Nat) : Bool :=
  if g.closed then g.low ≤ d * g.step && d * g.step ≤ g.high
  else g.low < d * g.step && d * g.step < g.high

/-- The neighbour of the number on the grid that rounds to it, the nearer one if both do, and
the even one of two equally near. -/
def Grid.pick? (g : Grid) : Option Nat :=
  let below := g.value / g.step
  let above := below + 1
  match g.holds below, g.holds above with
  | false, false => none
  | true, false => some below
  | false, true => some above
  | true, true =>
    let down := g.value - below * g.step
    let up := above * g.step - g.value
    if down < up then some below
    else if up < down then some above
    else if below % 2 = 0 then some below else some above

/-- Tries the grids from `place` on downwards, at most `tries` of them. -/
def Binary.search (b : Binary) (place : Int) : Nat → Digits
  | 0 => ⟨(b.grid place).value / (b.grid place).step, place⟩
  | tries + 1 =>
    match (b.grid place).pick? with
    | some d => ⟨d, place⟩
    | none => b.search (place - 1) tries

/-- The exponent of the number's leading decimal digit. -/
def Binary.leading (b : Binary) : Int :=
  leadingExponent (b.significand * Nat.pow 2 b.exponent.toNat) (Nat.pow 2 (-b.exponent).toNat)

/-- Moves trailing zeros of the digits into the exponent, at most `most` of them. -/
def Digits.strip (d : Digits) : Nat → Digits
  | 0 => d
  | most + 1 =>
    if d.digits % 10 = 0 then Digits.strip ⟨d.digits / 10, d.exponent + 1⟩ most else d

/-- The shortest decimal that reads back as the number; 17 digits always suffice. -/
def shortest (b : Binary) : Digits :=
  (b.search b.leading 17).strip 17

end InlineCheck.Decimal
