import Contracts.Binary64.Decimal

/-!
# Fewest digits that read back

A finite magnitude is written with the fewest significant digits whose decimal number reads
back as the same magnitude; among the decimals with that many digits the nearest is taken.
For each number of digits only the two neighbours of the magnitude on the grid of that many
digits have to be tried.  Seventeen digits always suffice; the exact decimal value stands
behind the search.
-/

namespace Contracts

/-- Which of two equally near decimals is written. -/
inductive Tie where
  | up
  | even
deriving DecidableEq

/-- Significant digits `d₁ d₂ … dₙ` standing for `d₁.d₂ … dₙ * 10 ^ exponent`. -/
structure Scientific where
  digits : List Char
  exponent : Int
deriving DecidableEq

namespace Magnitude

/-- The exponent of the least power of ten above a positive finite magnitude. -/
def decimalPoint (m : Magnitude) : Int :=
  if unitsPerOne <= m.units then (Decimal.digits (m.units / unitsPerOne)).length
  else 1 - (Decimal.digits ((unitsPerOne - 1) / m.units)).length

/-- The quotient, as numerator and denominator, of a magnitude by a power of ten. -/
def overPowerOfTen (m : Magnitude) : Int -> Nat × Nat
  | .ofNat k =>
      (m.units, unitsPerOne * Nat.pow 10 k)
  | .negSucc k =>
      (m.units * Nat.pow 10 (k + 1), unitsPerOne)

/-- Whether a decimal reads back as the magnitude. -/
def readsBack (m : Magnitude) (coefficient : Nat) (exponent : Int) : Bool :=
  ofDecimal coefficient exponent == m

/-- The coefficient nearest to the magnitude among its two neighbours on the grid of multiples
of `10 ^ exponent`, of those that read back. -/
def neighbour? (tie : Tie) (m : Magnitude) (exponent : Int) : Option Nat :=
  let (n, d) := m.overPowerOfTen exponent
  let low := n / d
  let twice := 2 * (n % d)
  match m.readsBack low exponent, m.readsBack (low + 1) exponent with
  | true, true =>
      if twice < d then some low
      else if d < twice then some (low + 1)
      else
        match tie with
        | .up =>
            some (low + 1)
        | .even =>
            some (low + low % 2)
  | true, false =>
      some low
  | false, true =>
      some (low + 1)
  | false, false =>
      none

/-- The decimal with the fewest significant digits that reads back. -/
def shortest (tie : Tie) (m : Magnitude) : Nat × Int :=
  let point := m.decimalPoint
  let found := (List.range 17).findSome? fun (n : Nat) =>
    let grid := point - (n + 1)
    (m.neighbour? tie grid).map fun c => (c, grid)
  found.getD (m.units * Nat.pow 5 unitExponent, -(unitExponent : Int))

/-- The significant digits of a finite magnitude; zero has the single digit `0`. -/
def scientific (tie : Tie) (m : Magnitude) : Scientific :=
  if m = zero then ⟨['0'], 0⟩
  else
    let (coefficient, exponent) := m.shortest tie
    let ds := Decimal.digits coefficient
    ⟨(ds.reverse.dropWhile (· == '0')).reverse, exponent + ds.length - 1⟩

end Magnitude
end Contracts
