import Contracts.Binary64.Decimal

/-!
# Scaled significands

A quick way to read a decimal: its digits are gathered in a significand of 64 bits, which is
rounded to a magnitude and then multiplied or divided by a power of ten, with a rounding at
each step.  Digits that no longer fit are dropped.  A short number with a small exponent is read
as the nearest magnitude; a longer one may be read as a neighbour of it.

`ofScaled?` has no answer for a number beyond the range of magnitudes.
-/

namespace Contracts

namespace Decimal

/-- The first number that 64 bits do not hold. -/
def wordLimit : Nat := 0x10000000000000000

/-- Appends digits to a significand as long as 64 bits hold it; the digits left over follow. -/
def gather (significand : Nat) : List Char -> Nat × List Char
  | [] =>
      (significand, [])
  | c :: rest =>
      let next := 10 * significand + (c.toNat - '0'.toNat)
      if next < wordLimit then gather next rest else (significand, c :: rest)

end Decimal

namespace Magnitude

def product (a b : Magnitude) : Magnitude :=
  nearest (a.units * b.units) unitsPerOne

def quotient (a b : Magnitude) : Magnitude :=
  nearest (a.units * unitsPerOne) b.units

/-- The greatest power of ten within the range of magnitudes has this exponent. -/
def greatestPower : Nat := 308

/-- A magnitude divided by `10 ^ k`, in steps of at most the greatest power. -/
def scaleDown (m : Magnitude) (k : Nat) : Magnitude :=
  if k <= greatestPower then m.quotient (ofNat (Nat.pow 10 k))
  else if m = zero then zero
  else scaleDown (m.quotient (ofNat (Nat.pow 10 greatestPower))) (k - greatestPower)
termination_by k
decreasing_by
  simp only [greatestPower] at *
  omega

/-- A magnitude multiplied by `10 ^ k`, if it stays finite. -/
def scaleUp? (m : Magnitude) (k : Nat) : Option Magnitude :=
  if greatestPower < k then if m = zero then some zero else none
  else
    let scaled := m.product (ofNat (Nat.pow 10 k))
    if scaled = infinity then none else some scaled

/-- A magnitude multiplied by a power of ten, if it stays finite. -/
def scale? (m : Magnitude) : Int -> Option Magnitude
  | .ofNat k =>
      m.scaleUp? k
  | .negSucc k =>
      some (m.scaleDown (k + 1))

/-- The magnitude of a decimal with digits before and after the point, by a scaled significand. -/
def ofScaled? (whole fraction : List Char) (exponent : Int) : Option Magnitude :=
  let (high, dropped) := Decimal.gather 0 whole
  let (significand, ignored) := Decimal.gather high fraction
  let taken := fraction.length - ignored.length
  (ofNat significand).scale? (exponent + dropped.length - taken)

end Magnitude
end Contracts
