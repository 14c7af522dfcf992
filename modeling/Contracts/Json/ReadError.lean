import Contracts.Binary64.Decimal
import Contracts.Json.Writer
import Contracts.Text.Quoted

/-!
# Errors of reading JSON

A text that is no JSON ends too early or is malformed.  A text that is JSON so far may still
have a shape other than the one asked for; then the error says what was found and what was
expected.
-/

namespace Contracts
namespace Json

/-- What stands in a document where something else was expected. -/
inductive Found where
  | null
  | bool (b : Bool)
  | integer (n : Int)
  | number (x : Binary64)
  | str (s : String)
  | sequence
  | map

def Found.describe : Found -> String
  | null =>
      "null"
  | bool b =>
      "boolean `" ++ (if b then "true" else "false") ++ "`"
  | integer n =>
      "integer `" ++ String.ofList (Decimal.intDigits n) ++ "`"
  | number x =>
      "floating point `" ++ String.ofList (writeFloat x) ++ "`"
  | str s =>
      "string " ++ Text.quoted s
  | sequence =>
      "sequence"
  | map =>
      "map"

/-- A way in which a document has another shape than the one asked for. -/
inductive Mismatch where
  | invalidType (found : Found) (expected : String)
  | missingField (name : String)
  | duplicateField (name : String)
  | unknownVariant (name : String) (variants : List String)
  /-- A sequence that stops before the fields of a record are complete. -/
  | invalidLength (length : Nat) (record : String) (fields : Nat)

def Mismatch.message : Mismatch -> String
  | invalidType found expected =>
      "invalid type: " ++ found.describe ++ ", expected " ++ expected
  | missingField name =>
      "missing field `" ++ name ++ "`"
  | duplicateField name =>
      "duplicate field `" ++ name ++ "`"
  | unknownVariant name variants =>
      "unknown variant `" ++ name ++ "`, expected one of "
        ++ ", ".intercalate (variants.map fun v => "`" ++ v ++ "`")
  | invalidLength length record fields =>
      "invalid length " ++ String.ofList (Decimal.digits length) ++ ", expected " ++ record
        ++ " with " ++ String.ofList (Decimal.digits fields) ++ " elements"

/-- Why a text could not be read. -/
inductive ReadError where
  | endOfText
  | malformed
  | mismatch (m : Mismatch)

end Json
end Contracts
