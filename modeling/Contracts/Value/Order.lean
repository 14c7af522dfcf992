import Contracts.Value.Basic
import Contracts.Value.Numeral

/-!
# Strict equality and loose order

Strict equality compares plain data of one kind, integers and floats as numbers, and arrays
and objects by identity.  The loose order compares two texts by their characters and two
integers exactly, and turns everything else into numbers first.
-/

namespace Contracts
namespace Value

/-- Strict equality. -/
def strictEquals : Value -> Value -> Bool
  | missing, missing =>
      true
  | null, null =>
      true
  | bool a, bool b =>
      a == b
  | int a, int b =>
      a == b
  | int a, float y =>
      (Binary64.ofInt a.toInt).numEq y
  | float x, int b =>
      (Binary64.ofInt b.toInt).numEq x
  | float x, float y =>
      x.numEq y
  | str s, str t =>
      s == t
  | array h _, array k _ =>
      h == k
  | object h _, object k _ =>
      h == k
  | _, _ =>
      false

/-- The number that a value stands for in the loose order. -/
def toNumber : Value -> Binary64
  | missing =>
      .nan
  | null =>
      .zero
  | bool b =>
      Binary64.ofInt (if b then 1 else 0)
  | int n =>
      Binary64.ofInt n.toInt
  | float x =>
      x
  | str s =>
      Numeral.read s
  | array _ _ =>
      .nan
  | object _ _ =>
      .nan

/-- The loose order; `none` when one side is no number. -/
def compare? : Value -> Value -> Option Ordering
  | str s, str t =>
      some (compare s t)
  | int a, int b =>
      some (compare a.toInt b.toInt)
  | x, y =>
      x.toNumber.compare? y.toNumber

end Value
end Contracts
