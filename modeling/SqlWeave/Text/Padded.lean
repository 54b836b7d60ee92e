/-!
# Zero-padded numbers

A number in decimal with at least a given number of digits.
-/

namespace SqlWeave.Text

/-- The decimal digits of a number, with zeros in front up to `width`. -/
def padded (width n : Nat) : List Char :=
  let digits := Nat.toDigits 10 n
  List.replicate (width - digits.length) '0' ++ digits

/-- A sign if the number is negative, and its absolute value padded to `width`. -/
def paddedInt (width : Nat) (n : Int) : List Char :=
  (if n < 0 then ['-'] else []) ++ padded width n.natAbs

end SqlWeave.Text
