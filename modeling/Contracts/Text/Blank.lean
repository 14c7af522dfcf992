/-!
# Blanks

The Unicode property White_Space, the trimming of blanks from the ends of a text, and the
splitting of a text into words.  Texts are lists of characters here.
-/

namespace Contracts
namespace Text

/-- The Unicode property White_Space. -/
def isBlank (c : Char) : Bool :=
  let n := c.toNat
  (9 <= n && n <= 13) || n == 0x20 || n == 0x85 || n == 0xA0 || n == 0x1680 ||
    (0x2000 <= n && n <= 0x200A) || n == 0x2028 || n == 0x2029 || n == 0x202F ||
    n == 0x205F || n == 0x3000

theorem isBlank_of_isWhitespace {c : Char} (h : c.isWhitespace = true) : isBlank c = true := by
  simp only [Char.isWhitespace, Bool.or_eq_true, decide_eq_true_eq] at h
  rcases h with ((rfl | rfl) | rfl) | rfl <;> decide

/-- A text without the blanks at its start. -/
def trimStart (text : List Char) : List Char :=
  text.dropWhile isBlank

/-- A text without the blanks at its end. -/
def trimEnd (text : List Char) : List Char :=
  (text.reverse.dropWhile isBlank).reverse

def trim (text : List Char) : List Char :=
  trimEnd (trimStart text)

/-- The pieces of a list between the elements that satisfy `separates`. -/
def splitBy {α : Type} (separates : α -> Bool) : List α -> List (List α)
  | [] =>
      [[]]
  | x :: rest =>
      if separates x then [] :: splitBy separates rest
      else
        match splitBy separates rest with
        | [] =>
            [[x]]
        | piece :: pieces =>
            (x :: piece) :: pieces

/-- The words of a text: its longest runs without blanks. -/
def words (text : List Char) : List (List Char) :=
  (splitBy isBlank text).filter fun word => !word.isEmpty

@[simp] theorem trimStart_nil : trimStart [] = [] := rfl

@[simp] theorem trimEnd_nil : trimEnd [] = [] := rfl

@[simp] theorem trim_nil : trim [] = [] := rfl

theorem splitBy_ne_nil {α : Type} (separates : α -> Bool) (list : List α) :
    splitBy separates list ≠ [] := by
  induction list with
  | nil =>
      simp [splitBy]
  | cons x rest ih =>
      unfold splitBy
      split
      · simp
      · split <;> simp

end Text
end Contracts
