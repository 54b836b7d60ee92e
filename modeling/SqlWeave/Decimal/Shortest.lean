import SqlWeave.Decimal.Binary64

/-!
# The shortest decimal that reads back

Every real number nearer to a finite `x` than to its neighbours reads back as `x`; the
two ends of that interval do so exactly when the significand of `x` is even. Among the
decimals in the interval, `Binary64.shortest` takes one with the fewest digits, of those
the nearest to `x`, and of two equally near the larger.

All is exact : the value and the ends of its interval are fractions over one denominator.
A grid `10 ^ g` can have a point in the interval only if the multiple just below the
value, or the one just above it, is such a point. So the search tries these two, from a
grid above the value down, and the first grid with a hit has the fewest digits.
-/

namespace SqlWeave

/-- The decimal `digits · 10 ^ exponent`. -/
structure Decimal where
  digits : Nat
  exponent : Int
  deriving DecidableEq, Repr

/-- A value with the ends of the interval that reads back as it, over one denominator. -/
structure ReadInterval where
  low : Nat
  value : Nat
  high : Nat
  denominator : Nat
  /-- Whether the ends belong to the interval. -/
  closed : Bool

namespace ReadInterval

/-- Whether `n · 10 ^ g` lies in the interval. -/
def holds (i : ReadInterval) (g : Int) (n : Nat) : Bool :=
  let point := n * i.denominator * Nat.pow 10 g.toNat
  let unit := Nat.pow 10 (-g).toNat
  if i.closed then i.low * unit ≤ point && point ≤ i.high * unit
  else i.low * unit < point && point < i.high * unit

/-- The multiple of `10 ^ g` at or below the value. -/
def below (i : ReadInterval) (g : Int) : Nat :=
  i.value * Nat.pow 10 (-g).toNat / (i.denominator * Nat.pow 10 g.toNat)

/-- Whether the value is nearer to `n · 10 ^ g` than to the next multiple. -/
def nearerBelow (i : ReadInterval) (g : Int) (n : Nat) : Bool :=
  2 * i.value * Nat.pow 10 (-g).toNat < (2 * n + 1) * i.denominator * Nat.pow 10 g.toNat

/-- The point of the grid `10 ^ g` to print, if one reads back. -/
def hit? (i : ReadInterval) (g : Int) : Option Nat :=
  let n := i.below g
  match i.holds g n, i.holds g (n + 1) with
  | true, true => if i.nearerBelow g n then some n else some (n + 1)
  | true, false => some n
  | false, true => some (n + 1)
  | false, false => none

/-- The first hit on the grids `10 ^ g`, `10 ^ (g - 1)`, … after at most `steps` misses. -/
def search (i : ReadInterval) : Nat → Int → Decimal
  | 0, g => ⟨i.below g, g⟩
  | steps + 1, g =>
    match i.hit? g with
    | some n => ⟨n, g⟩
    | none => search i steps (g - 1)

/-- How many decimal digits a number has. -/
def decimalLength (n : Nat) : Nat := (Nat.toDigits 10 n).length

/-- An exponent `g` with the value below `10 ^ g`, and above a hundredth of it. -/
def topGrid (i : ReadInterval) : Int :=
  if i.denominator ≤ i.value then decimalLength (i.value / i.denominator)
  else 2 - (decimalLength (i.denominator / i.value) : Int)

end ReadInterval

namespace Binary64

/-- The interval of the reals that read back as a finite `x`. Below a power of two the
neighbour is at half the distance, except where the scale is the least. -/
def readInterval (x : Binary64) : ReadInterval :=
  let m := 4 * x.significand
  let step := 1 <<< (x.scale - 2).toNat
  let gap := if x.fraction = 0 && x.exponent > 1 then 1 else 2
  { low := (m - gap) * step
    value := m * step
    high := (m + 2) * step
    denominator := 1 <<< (2 - x.scale).toNat
    closed := x.significand % 2 == 0 }

/-- The shortest decimal that reads back as the absolute value of a finite `x`. Twenty
grids reach past the seventeen digits that always suffice. -/
def shortest (x : Binary64) : Decimal :=
  if x.significand = 0 then ⟨0, 0⟩
  else
    let i := x.readInterval
    i.search 20 i.topGrid

end Binary64

end SqlWeave
