/-!
# Hexadecimal pairs

Two digits for each byte, high half first. Pairs are written in upper case and read in
either case.
-/

namespace SqlWeave.Text

/-- The upper-case digit of a number below sixteen. -/
def hexDigit (n : Nat) : Char := (n.digitChar).toUpper

/-- The number that a digit stands for. -/
def hexValue? (c : Char) : Option Nat :=
  if '0' ≤ c && c ≤ '9' then some (c.toNat - '0'.toNat)
  else if 'A' ≤ c && c ≤ 'F' then some (c.toNat - 'A'.toNat + 10)
  else if 'a' ≤ c && c ≤ 'f' then some (c.toNat - 'a'.toNat + 10)
  else none

/-- The two digits of a byte. -/
def hexPair (b : UInt8) : List Char := [hexDigit (b.toNat / 16), hexDigit (b.toNat % 16)]

/-- The digits of a byte string. -/
def hexPairs (bytes : List UInt8) : List Char := bytes.flatMap hexPair

/-- The byte string that pairs of digits spell. -/
def ofHexPairs? : List Char → Option (List UInt8)
  | [] => some []
  | [_] => none
  | high :: low :: rest =>
    match hexValue? high, hexValue? low, ofHexPairs? rest with
    | some h, some l, some bytes => some (UInt8.ofNat (16 * h + l) :: bytes)
    | _, _, _ => none

/-- A number in lower-case hexadecimal, without leading zeros. -/
def lowerHex (n : Nat) : String := .ofList (Nat.toDigits 16 n)

end SqlWeave.Text
