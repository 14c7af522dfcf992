import Contracts.Binary64.Literal
import Contracts.Text.Blank

/-!
# Texts that read as numbers

A text reads as a number when, without the blanks around it, it is empty (zero), `Infinity`
with an optional sign, `0x`, `0o` or `0b` (in either case) with digits of that radix, or a
decimal with an optional sign and exponent.  Every other text reads as NaN.
-/

namespace Contracts
namespace Numeral

/-- The value of a digit in some radix; letters of either case stand for ten and more. -/
def digit? (radix : Nat) (c : Char) : Option Nat :=
  let value :=
    if '0' <= c && c <= '9' then some (c.toNat - '0'.toNat)
    else if 'a' <= c && c <= 'z' then some (c.toNat - 'a'.toNat + 10)
    else if 'A' <= c && c <= 'Z' then some (c.toNat - 'A'.toNat + 10)
    else none
  value.filter (· < radix)

/-- The radix that the letter after a leading zero announces. -/
def radix? : Char -> Option Nat
  | 'x' =>
      some 16
  | 'X' =>
      some 16
  | 'o' =>
      some 8
  | 'O' =>
      some 8
  | 'b' =>
      some 2
  | 'B' =>
      some 2
  | _ =>
      none

/-- The number that digits of a radix denote, or NaN if there are none or one is no digit. -/
def ofRadix (radix : Nat) (ds : List Char) : Binary64 :=
  match ds, ds.mapM (digit? radix) with
  | _ :: _, some values =>
      .number false (Magnitude.ofDigits radix values)
  | _, _ =>
      .nan

/-- A text without the sign that may stand first. -/
def withoutSign (text : List Char) : List Char :=
  (Decimal.splitSign text).2

/-- Whether a text is a decimal: an optional sign, digits with an optional point of which at least
one stands on either side, and an optional exponent. -/
def isDecimal (text : List Char) : Bool :=
  let body := withoutSign text
  let mantissa := body.takeWhile fun c => !Decimal.isExponentMark c
  let whole := mantissa.takeWhile (· != '.')
  let fraction := (mantissa.dropWhile (· != '.')).drop 1
  let exponentFits :=
    match body.dropWhile fun c => !Decimal.isExponentMark c with
    | [] =>
        true
    | _ :: rest =>
        !(withoutSign rest).isEmpty && (withoutSign rest).all Char.isDigit
  !(whole.isEmpty && fraction.isEmpty) && whole.all Char.isDigit && fraction.all Char.isDigit
    && exponentFits

/-- The number that a text without blanks around it spells. -/
def ofTrimmed (text : List Char) : Binary64 :=
  let finite :=
    if isDecimal text then (Binary64.parse? text).getD .nan else .nan
  if text = [] then .zero
  else if text = "Infinity".toList || text = "+Infinity".toList then .infinity false
  else if text = "-Infinity".toList then .infinity true
  else
    match text with
    | '0' :: c :: rest =>
        match radix? c with
        | some radix =>
            ofRadix radix rest
        | none =>
            finite
    | _ =>
        finite

/-- The number that a text reads as, with NaN for a text that spells none. -/
def read (text : String) : Binary64 :=
  ofTrimmed (Text.trim text.toList)

end Numeral
end Contracts
