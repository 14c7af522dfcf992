import Contracts.Binary64.Shortest

/-!
# Layout of numbers

How the significant digits of a number are set out: positionally (`0.00012`, `1200`) when the
exponent of the leading digit lies in a range, and otherwise with an explicit exponent that
always carries its sign (`1.2e-7`, `1e+21`).  What may differ between two outputs is one
record, `Layout`.
-/

namespace Contracts

/-- The choices an output makes in writing numbers. -/
structure Layout where
  /-- Which of two equally near decimals is written. -/
  tie : Tie
  /-- The least exponent of the leading digit that is written positionally. -/
  least : Int
  /-- The greatest exponent of the leading digit that is written positionally. -/
  greatest : Int
  /-- What follows a whole number written positionally. -/
  wholeSuffix : List Char
  /-- Whether the sign of negative zero is written. -/
  signedZero : Bool

namespace Layout

/-- Digits with the point at the place that the exponent of the leading digit asks for. -/
def positional (layout : Layout) (s : Scientific) : List Char :=
  match s.exponent with
  | .negSucc k =>
      ['0', '.'] ++ List.replicate k '0' ++ s.digits
  | .ofNat k =>
      if s.digits.length <= k + 1 then
        s.digits ++ List.replicate (k + 1 - s.digits.length) '0' ++ layout.wholeSuffix
      else s.digits.take (k + 1) ++ '.' :: s.digits.drop (k + 1)

/-- One digit before the point, and the exponent with its sign. -/
def exponential (s : Scientific) : List Char :=
  let mantissa :=
    match s.digits with
    | d :: e :: rest =>
        d :: '.' :: e :: rest
    | short =>
        short
  let sign := if s.exponent < 0 then '-' else '+'
  mantissa ++ 'e' :: sign :: Decimal.digits s.exponent.natAbs

/-- The digits of a finite magnitude, set out. -/
def magnitude (layout : Layout) (m : Magnitude) : List Char :=
  let s := m.scientific layout.tie
  if layout.least <= s.exponent && s.exponent <= layout.greatest then layout.positional s
  else exponential s

def write (layout : Layout) : Binary64 -> List Char
  | .nan =>
      ['N', 'a', 'N']
  | .number negative m =>
      let sign := if negative && (m != Magnitude.zero || layout.signedZero) then ['-'] else []
      if m = Magnitude.infinity then sign ++ ['I', 'n', 'f', 'i', 'n', 'i', 't', 'y']
      else sign ++ layout.magnitude m

end Layout
end Contracts
