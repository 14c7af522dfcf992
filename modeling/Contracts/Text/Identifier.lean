import Contracts.Text.Alphabetic

/-!
# Identifiers

An identifier starts with a letter, an underscore or a dollar sign, and goes on with these and
with numerals.
-/

namespace Contracts
namespace Text

def startsIdentifier (c : Char) : Bool :=
  isAlphabetic c || c == '_' || c == '$'

def continuesIdentifier (c : Char) : Bool :=
  isAlphanumeric c || c == '_' || c == '$'

def isIdentifier : List Char -> Bool
  | [] =>
      false
  | c :: rest =>
      startsIdentifier c && rest.all continuesIdentifier

@[simp] theorem isIdentifier_nil : isIdentifier [] = false := rfl

theorem continuesIdentifier_of_starts {c : Char} (h : startsIdentifier c = true) :
    continuesIdentifier c = true := by
  simp only [startsIdentifier, continuesIdentifier, isAlphanumeric, Bool.or_eq_true] at h ⊢
  rcases h with (h | h) | h <;> simp [h]

theorem all_of_isIdentifier {text : List Char} (h : isIdentifier text = true) :
    text.all continuesIdentifier = true := by
  cases text with
  | nil =>
      rfl
  | cons c rest =>
      simp only [isIdentifier, Bool.and_eq_true] at h
      simp [continuesIdentifier_of_starts h.1, h.2]

end Text
end Contracts
