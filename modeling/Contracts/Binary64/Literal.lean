import Contracts.Binary64.Decimal

/-!
# Decimal literals in texts

`Decimal.literal?` reads the parts of a decimal from the left: an optional sign, digits with an
optional point of which at least one stands on either side, and an optional exponent.  Nothing
may be left over.  `Binary64.parse?` turns them into the nearest number, and also knows the names
`inf`, `infinity` and `nan`, in any mixture of capitals and small letters.
-/

namespace Contracts

namespace Decimal

/-- A sign, if one stands first, and the rest. -/
def splitSign : List Char -> Bool × List Char
  | '+' :: rest =>
      (false, rest)
  | '-' :: rest =>
      (true, rest)
  | text =>
      (false, text)

/-- Whether a character stands before an exponent. -/
def isExponentMark (c : Char) : Bool :=
  c == 'e' || c == 'E'

/-- A nonempty list of decimal digits after an optional sign, as an integer. -/
def exponent? (text : List Char) : Option Int :=
  let (negative, ds) := splitSign text
  if ds.isEmpty || !ds.all Char.isDigit then none
  else
    let n := Decimal.ofDigits ds
    some (if negative then -(n : Int) else n)

/-- The digits behind a point, if one stands first, and the rest. -/
def splitFraction : List Char -> List Char × List Char
  | '.' :: rest =>
      (rest.takeWhile Char.isDigit, rest.dropWhile Char.isDigit)
  | rest =>
      ([], rest)

/-- The parts of a decimal that is spelled without its sign. -/
def unsigned? (negative : Bool) (text : List Char) : Option Literal :=
  let whole := text.takeWhile Char.isDigit
  let (fraction, rest) := splitFraction (text.dropWhile Char.isDigit)
  if whole.isEmpty && fraction.isEmpty then none
  else
    match rest with
    | [] =>
        some ⟨negative, whole, fraction, 0⟩
    | c :: rest =>
        if isExponentMark c then
          (exponent? rest).map fun e => ⟨negative, whole, fraction, e⟩
        else none

/-- The parts of the decimal that a text spells. -/
def literal? (text : List Char) : Option Literal :=
  let (negative, body) := splitSign text
  unsigned? negative body

end Decimal

namespace Binary64

/-- The number that a text names, after an optional sign. -/
def named? (text : List Char) : Option Binary64 :=
  let (negative, body) := Decimal.splitSign text
  let name := body.map Char.toLower
  if name = "inf".toList || name = "infinity".toList then some (.infinity negative)
  else if name = "nan".toList then some .nan
  else none

/-- The number that a text spells or names. -/
def parse? (text : List Char) : Option Binary64 :=
  match Decimal.literal? text with
  | some literal =>
      some literal.toBinary64
  | none =>
      named? text

end Binary64

end Contracts
