/-!
# Double-precision numbers

A double-precision number is held by its sign and the rank of its magnitude, the place of the
magnitude in the increasing sequence `0, 2^-1074, 2 * 2^-1074, …, infinity`.  Ranks below
`2^52` are the subnormal numbers; every further block of `2^52` ranks is one binade.  So
comparing magnitudes is comparing ranks, and no two forms stand for one number.

Exact values are natural numbers of *units*, one unit being `2^-1074`, the least positive
magnitude.  Every magnitude is a whole number of units, and infinity takes the value `2^1024`
that would follow the largest finite magnitude.

* `Magnitude.nearest n d` is the magnitude nearest to `n / d` units, a tie going to the even
  rank;
* `Binary64.compare?` orders numbers, with the two zeros equal and NaN unordered;
* `Binary64.ofBits` and `Binary64.bits` relate a number to its 64-bit pattern.
-/

namespace Contracts

/-- The rank of infinity among the magnitudes. -/
def infinityRank : Nat := 0x7FF0000000000000

/-- A magnitude, by its place in increasing order. -/
abbrev Magnitude := Fin (infinityRank + 1)

namespace Magnitude

def infinity : Magnitude := ⟨infinityRank, Nat.lt_succ_self _⟩

def zero : Magnitude := ⟨0, Nat.succ_pos _⟩

/-- The number of magnitudes in one binade, `2^52`. -/
def binadeSize : Nat := 0x10000000000000

/-- One unit is two to the negative of this. -/
def unitExponent : Nat := 1074

/-- How many units make one. -/
def unitsPerOne : Nat := Nat.pow 2 unitExponent

theorem unitsPerOne_pos : 0 < unitsPerOne := by
  unfold unitsPerOne
  generalize unitExponent = k
  exact Nat.two_pow_pos k

/-- How many units of `2^-1074` a magnitude is. -/
def units (m : Magnitude) : Nat :=
  if m.val < binadeSize then m.val
  else (binadeSize + m.val % binadeSize) * Nat.pow 2 (m.val / binadeSize - 1)

/-- The whole number nearest to `n / d`, a tie going to the even one. -/
def roundHalfEven (n d : Nat) : Nat :=
  if 2 * (n % d) < d then n / d
  else if d < 2 * (n % d) then n / d + 1
  else n / d + n / d % 2

/-- The magnitude nearest to `n / d` units, a tie going to the even rank.  Within one binade the
magnitudes are the multiples of one power of two, and the first magnitude past a binade is the
first one of the next, so a quotient rounded to that power of two is the rank. -/
def nearest (n d : Nat) : Magnitude :=
  let binade := (n / d).log2 - 52
  ⟨min infinityRank (binade * binadeSize + roundHalfEven n (d * Nat.pow 2 binade)),
    Nat.lt_succ_of_le (Nat.min_le_left _ _)⟩

/-- The magnitude nearest to a whole number. -/
def ofNat (n : Nat) : Magnitude :=
  nearest (n * unitsPerOne) 1

/-- Appending a digit to a magnitude written in some radix: a product and a sum, each rounded. -/
def appendDigit (radix : Nat) (m : Magnitude) (digit : Nat) : Magnitude :=
  nearest ((nearest (m.units * radix) 1).units + digit * unitsPerOne) 1

/-- The magnitude of a list of digits, read from the left with every step rounded. -/
def ofDigits (radix : Nat) (digits : List Nat) : Magnitude :=
  digits.foldl (appendDigit radix) zero

@[simp] theorem ofDigits_nil (radix : Nat) : ofDigits radix [] = zero := rfl

theorem ofDigits_append (radix : Nat) (a b : List Nat) :
    ofDigits radix (a ++ b) = b.foldl (appendDigit radix) (ofDigits radix a) := by
  simp [ofDigits]

end Magnitude

/-- A double-precision number; all NaN patterns are one. -/
inductive Binary64 where
  | nan
  | number (negative : Bool) (magnitude : Magnitude)
deriving DecidableEq

namespace Binary64

def zero : Binary64 := .number false Magnitude.zero

def infinity (negative : Bool) : Binary64 := .number negative Magnitude.infinity

def isFinite : Binary64 -> Bool
  | nan =>
      false
  | number _ m =>
      m != Magnitude.infinity

def isNonzero : Binary64 -> Bool
  | nan =>
      false
  | number _ m =>
      m != Magnitude.zero

/-- The number nearest to an integer. -/
def ofInt (n : Int) : Binary64 :=
  .number (n < 0) (Magnitude.ofNat n.natAbs)

/-- The rank with the number's sign, on which the two zeros agree. -/
def signedRank (negative : Bool) (m : Magnitude) : Int :=
  if negative then -(m.val : Int) else m.val

/-- The order of two numbers; NaN is unordered with every number and with itself. -/
def compare? : Binary64 -> Binary64 -> Option Ordering
  | number s a, number t b =>
      some (compare (signedRank s a) (signedRank t b))
  | _, _ =>
      none

/-- Numerical equality: the two zeros are equal, and NaN differs from itself. -/
def numEq (x y : Binary64) : Bool :=
  x.compare? y == some .eq

/-- What the sign adds to a 64-bit pattern, `2^63`. -/
def signBit : Nat := 0x8000000000000000

/-- The number with a given 64-bit pattern. -/
def ofBits (bits : Nat) : Binary64 :=
  let rank := bits % signBit
  if h : rank <= infinityRank then
    .number (bits / signBit % 2 == 1) ⟨rank, Nat.lt_succ_of_le h⟩
  else .nan

/-- The 64-bit pattern of a number; NaN has the quiet positive pattern. -/
def bits : Binary64 -> Nat
  | nan =>
      0x7FF8000000000000
  | number negative m =>
      (if negative then signBit else 0) + m.val

theorem bits_mod (negative : Bool) (m : Magnitude) :
    bits (.number negative m) % signBit = m.val := by
  have hm := m.isLt
  unfold infinityRank at hm
  cases negative with
  | false =>
      show (0 + m.val) % 0x8000000000000000 = m.val
      omega
  | true =>
      show (0x8000000000000000 + m.val) % 0x8000000000000000 = m.val
      omega

theorem bits_div (negative : Bool) (m : Magnitude) :
    (bits (.number negative m) / signBit % 2 == 1) = negative := by
  have hm := m.isLt
  unfold infinityRank at hm
  cases negative with
  | false =>
      have h : (0 + m.val) / signBit % 2 = 0 := by
        unfold signBit
        omega
      show ((0 + m.val) / signBit % 2 == 1) = false
      rw [h]
      rfl
  | true =>
      have h : (signBit + m.val) / signBit % 2 = 1 := by
        unfold signBit
        omega
      show ((signBit + m.val) / signBit % 2 == 1) = true
      rw [h]
      rfl

theorem ofBits_bits (x : Binary64) : ofBits x.bits = x := by
  cases x with
  | nan =>
      decide
  | number negative m =>
      have h : bits (.number negative m) % signBit <= infinityRank := by
        rw [bits_mod]
        exact Nat.le_of_lt_succ m.isLt
      unfold ofBits
      rw [dif_pos h, bits_div]
      congr 1
      exact Fin.ext (bits_mod negative m)

end Binary64
end Contracts
