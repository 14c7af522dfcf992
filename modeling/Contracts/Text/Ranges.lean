/-!
# Character ranges

A property of characters that follows no arithmetic rule is a list of ranges of code points.
The lists of this library are sorted, so a search stops at the first range that begins beyond
the character.
-/

namespace Contracts
namespace Text

/-- Whether a code point lies in one of the ranges, which are sorted and disjoint. -/
def inRanges (code : Nat) : List (Nat × Nat) -> Bool
  | [] =>
      false
  | (first, last) :: rest =>
      if code < first then false
      else if code <= last then true
      else inRanges code rest

@[simp] theorem inRanges_nil (code : Nat) : inRanges code [] = false := rfl

end Text
end Contracts
