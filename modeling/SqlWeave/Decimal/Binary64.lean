/-!
# Binary64 numbers by their bits

A floating-point number is kept as its 64 bits : one sign bit, eleven exponent bits,
and 52 fraction bits. A finite number is `± significand · 2 ^ scale`, with `scale` at
least `-1074`; the largest exponent marks infinities and the values that are no number.

Equality of `Binary64` is equality of the bits. `Binary64.same` is the comparison of
numbers : both zeros are the same, and no number is the same as a value that is none.
-/

namespace SqlWeave

/-- A binary64 number, as its bits. -/
structure Binary64 where
  bits : UInt64
  deriving DecidableEq, Repr

/-- A binary32 number, as its bits : one sign bit, eight exponent bits, 23 fraction bits. -/
structure Binary32 where
  bits : UInt32
  deriving DecidableEq, Repr

namespace Binary64

/-- How many fractions there are : `2 ^ 52`. -/
def fractionCount : Nat := 1 <<< 52

/-- Whether the sign bit is set. -/
def negative (x : Binary64) : Bool := x.bits.toNat >>> 63 == 1

/-- The eleven exponent bits. -/
def exponent (x : Binary64) : Nat := (x.bits.toNat >>> 52) % 2048

/-- The 52 fraction bits. -/
def fraction (x : Binary64) : Nat := x.bits.toNat % fractionCount

/-- Whether the number is neither infinite nor no number. -/
def isFinite (x : Binary64) : Bool := x.exponent != 2047

/-- Whether the value is no number. -/
def isNaN (x : Binary64) : Bool := x.exponent == 2047 && x.fraction != 0

/-- Whether the number is a zero of either sign. -/
def isZero (x : Binary64) : Bool := x.exponent == 0 && x.fraction == 0

/-- The whole number `m` of `± m · 2 ^ scale`. -/
def significand (x : Binary64) : Nat :=
  if x.exponent = 0 then x.fraction else fractionCount + x.fraction

/-- The power of two of `± significand · 2 ^ scale`. -/
def scale (x : Binary64) : Int :=
  if x.exponent = 0 then -1074 else (x.exponent : Int) - 1075

/-- Whether two numbers are equal as numbers. -/
def same (x y : Binary64) : Bool :=
  !x.isNaN && !y.isNaN && (x.bits == y.bits || (x.isZero && y.isZero))

/-- The number with the given sign and the given bits below it. -/
def ofParts (negative : Bool) (magnitude : Nat) : Binary64 :=
  ⟨.ofNat ((if negative then 1 <<< 63 else 0) + magnitude)⟩

/-- `n` cut to 53 significant bits by rounding `n / 2 ^ shift` to the nearest whole number,
a half to the even one. -/
def roundShift (n shift : Nat) : Nat :=
  let unit := 1 <<< shift
  let quotient := n / unit
  let twice := 2 * (n % unit)
  if twice > unit || (twice == unit && quotient % 2 == 1) then quotient + 1
  else quotient

/-- The bits below the sign of the number nearest to `n`. The fraction carries into the
exponent when rounding reaches the next power of two. -/
def magnitudeOfNat (n : Nat) : Nat :=
  if n = 0 then 0
  else
    let top := n.log2
    let significand := if top ≤ 52 then n <<< (52 - top) else roundShift n (top - 52)
    (top + 1022) * fractionCount + significand

/-- The number nearest to a whole number. -/
def ofInt (n : Int) : Binary64 := ofParts (n < 0) (magnitudeOfNat n.natAbs)

/-- The same number in the wider format. Numbers below the least normal one of the narrow
format are normal here. -/
def ofBinary32 (x : Binary32) : Binary64 :=
  let n := x.bits.toNat
  let negative := n >>> 31 == 1
  let exponent := (n >>> 23) % 256
  let fraction := n % (1 <<< 23)
  let magnitude :=
    if exponent = 255 then 2047 * fractionCount + fraction <<< 29
    else if exponent = 0 then
      if fraction = 0 then 0
      else
        let top := fraction.log2
        (top + 873) * fractionCount + fraction <<< (52 - top)
    else (exponent + 896) * fractionCount + fraction <<< 29
  ofParts negative magnitude

end Binary64

end SqlWeave
