import Contracts.Binary64.Basic

/-!
# Decimal numbers

A decimal is a coefficient and a power of ten.  `Magnitude.ofDecimal` is the magnitude nearest
to it.  Powers of ten far beyond the range of magnitudes are decided by size alone, so that a
short text with a long exponent costs no long arithmetic; both shortcuts give what rounding the
exact quotient gives.

Digits are characters, as they stand in texts.
-/

namespace Contracts

namespace Magnitude

/-- The magnitude nearest to `coefficient * 10 ^ exponent`. -/
def ofDecimal (coefficient : Nat) (exponent : Int) : Magnitude :=
  if coefficient = 0 then zero
  else
    match exponent with
    | .ofNat k =>
        if 309 <= k then infinity else nearest (coefficient * Nat.pow 10 k * unitsPerOne) 1
    | .negSucc k =>
        if coefficient.log2 + 1077 <= 3 * (k + 1) then zero
        else nearest (coefficient * unitsPerOne) (Nat.pow 10 (k + 1))

end Magnitude

namespace Decimal

/-- The decimal digits of a number, without leading zeros. -/
def digits (n : Nat) : List Char :=
  Nat.toDigits 10 n

/-- The number that a list of decimal digits denotes. -/
def ofDigits (ds : List Char) : Nat :=
  Nat.ofDigitChars 10 ds 0

theorem ofDigits_digits (n : Nat) : ofDigits (digits n) = n :=
  Nat.ofDigitChars_toDigits (by decide) (by decide)

theorem isDigit_of_mem_digits {c : Char} {n : Nat} (h : c ∈ digits n) : c.isDigit = true :=
  Nat.isDigit_of_mem_toDigits (by decide) (by decide) h

/-- An integer in decimal, with a minus sign when negative. -/
def intDigits (n : Int) : List Char :=
  if n < 0 then '-' :: digits n.natAbs else digits n.natAbs

/-- The parts of a number written in decimal. -/
structure Literal where
  negative : Bool
  /-- The digits before the point. -/
  whole : List Char
  /-- The digits after the point. -/
  fraction : List Char
  exponent : Int

/-- The number nearest to a literal. -/
def Literal.toBinary64 (l : Literal) : Binary64 :=
  .number l.negative
    (Magnitude.ofDecimal (ofDigits (l.whole ++ l.fraction)) (l.exponent - l.fraction.length))

end Decimal

end Contracts
