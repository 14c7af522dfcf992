import Contracts.Binary64.Layout
import Contracts.Value.Basic

/-!
# Values in messages

The text of a value in descriptions and in names.  An array shows its items between commas,
leaving the place of a missing or null item empty; objects show no contents.
-/

namespace Contracts
namespace Value

/-- Numbers in messages: positional from `0.000001` up to 21 digits before the point, whole
numbers without a point, and one zero. -/
def numberLayout : Layout where
  tie := .up
  least := -6
  greatest := 20
  wholeSuffix := []
  signedZero := false

mutual

/-- A value in a message. -/
def display : Value -> String
  | missing =>
      "undefined"
  | null =>
      "null"
  | bool b =>
      if b then "true" else "false"
  | int n =>
      String.ofList (Decimal.intDigits n.toInt)
  | float x =>
      String.ofList (numberLayout.write x)
  | str s =>
      s
  | array _ items =>
      ",".intercalate (displayItems items)
  | object _ _ =>
      "[object Object]"

def displayItems : List Value -> List String
  | [] =>
      []
  | item :: rest =>
      (if item.isMissing || item.isNull then "" else display item) :: displayItems rest

end

end Value
end Contracts
