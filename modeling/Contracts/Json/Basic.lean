import Contracts.Binary64.Decimal

/-!
# JSON documents

A document is a tree.  An integer literal that fits 64 bits with sign is kept exactly; every
other number is a double.  The entries of an object stand in the order in which they are
written; a document that was read has them sorted by key.
-/

namespace Contracts

inductive Json where
  | null
  | bool (b : Bool)
  | int (n : Int)
  | float (x : Binary64)
  | str (s : String)
  | array (items : List Json)
  | object (entries : List (String × Json))

instance : Inhabited Json := ⟨.null⟩

namespace Json

/-- Places an entry among entries sorted by key, in place of an entry with the same key. -/
def insertSorted (key : String) (value : Json) :
    List (String × Json) -> List (String × Json)
  | [] =>
      [(key, value)]
  | (k, v) :: rest =>
      if key < k then (key, value) :: (k, v) :: rest
      else if key = k then (key, value) :: rest
      else (k, v) :: insertSorted key value rest

/-- Entries sorted by key; of several with one key the last stays. -/
def sortEntries (entries : List (String × Json)) : List (String × Json) :=
  entries.foldl (fun sorted entry => insertSorted entry.1 entry.2 sorted) []

end Json
end Contracts
