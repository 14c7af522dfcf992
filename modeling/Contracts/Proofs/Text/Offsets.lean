import Mathlib.Data.String.Basic

/-!
# Slices at bytes

A text in UTF-8 can be cut only at a byte where a character begins, or at its end.  A slice
between two bytes is such a cut made twice.  Whether a slice can be taken is thereby a fact about
the text, and the slice tells how the text is composed.
-/

namespace Contracts
namespace Text

open String (utf8Len)

/-- A text cut in two at a byte, unless it ends before the byte or the byte is inside a
character. -/
def cutAt? : Nat -> List Char -> Option (List Char × List Char)
  | 0, text =>
      some ([], text)
  | _ + 1, [] =>
      none
  | n + 1, c :: rest =>
      if c.utf8Size <= n + 1 then
        (cutAt? (n + 1 - c.utf8Size) rest).map fun parts => (c :: parts.1, parts.2)
      else none

/-- The text between two bytes of a text, if it can be cut there. -/
def slice? (text : List Char) (start stop : Nat) : Option (List Char) :=
  (cutAt? stop text).bind fun upTo => (cutAt? start upTo.1).map Prod.snd

@[simp] theorem cutAt?_zero (text : List Char) : cutAt? 0 text = some ([], text) := by
  cases text <;> rfl

theorem cutAt?_append (front back : List Char) :
    cutAt? (utf8Len front) (front ++ back) = some (front, back) := by
  induction front with
  | nil =>
      exact cutAt?_zero back
  | cons c front ih =>
      have hpos := c.utf8Size_pos
      have hsucc : exists n, String.utf8Len (c :: front) = n + 1 :=
        Nat.exists_eq_succ_of_ne_zero (by simp; omega)
      rcases hsucc with ⟨n, hn⟩
      have hfits : c.utf8Size ≤ n + 1 := by
        rw [← hn, String.utf8Len_cons]
        omega
      have hrest : n + 1 - c.utf8Size = utf8Len front := by
        rw [← hn, String.utf8Len_cons]
        omega
      rw [hn, List.cons_append, cutAt?, if_pos hfits, hrest, ih]
      rfl

theorem eq_append_of_cutAt? {n : Nat} {text front back : List Char}
    (h : cutAt? n text = some (front, back)) : text = front ++ back ∧ utf8Len front = n := by
  induction text generalizing n front with
  | nil =>
      cases n with
      | zero =>
          cases h
          exact ⟨rfl, rfl⟩
      | succ n =>
          cases h
  | cons c rest ih =>
      cases n with
      | zero =>
          cases h
          exact ⟨rfl, rfl⟩
      | succ n =>
          rw [cutAt?] at h
          split at h
          · rename_i hfits
            rcases Option.map_eq_some_iff.mp h with ⟨⟨front', back'⟩, hcut, heq⟩
            cases heq
            rcases ih hcut with ⟨rfl, hsize⟩
            refine ⟨rfl, ?_⟩
            rw [String.utf8Len_cons, hsize]
            omega
          · cases h

theorem cutAt?_eq_some_iff {n : Nat} {text front back : List Char} :
    cutAt? n text = some (front, back) <-> text = front ++ back ∧ utf8Len front = n := by
  constructor
  · exact eq_append_of_cutAt?
  · rintro ⟨rfl, rfl⟩
    exact cutAt?_append front back

/-- A text can be cut at the bytes that are positions of it. -/
theorem isSome_cutAt?_iff {n : Nat} {text : List Char} :
    (cutAt? n text).isSome = true <-> String.Pos.Raw.IsValid (String.ofList text) ⟨n⟩ := by
  rw [String.Pos.Raw.isValid_iff_exists_append, Option.isSome_iff_exists]
  constructor
  · rintro ⟨⟨front, back⟩, h⟩
    rcases cutAt?_eq_some_iff.mp h with ⟨rfl, rfl⟩
    exact ⟨String.ofList front, String.ofList back, String.ofList_append, by simp⟩
  · rintro ⟨front, back, htext, hn⟩
    refine ⟨(front.toList, back.toList), cutAt?_eq_some_iff.mpr ⟨?_, ?_⟩⟩
    · have hlist := congrArg String.toList htext
      simpa using hlist
    · have hbytes := congrArg String.Pos.Raw.byteIdx hn
      simpa using hbytes.symm

theorem slice?_append (front piece back : List Char) :
    slice? (front ++ (piece ++ back)) (utf8Len front) (utf8Len (front ++ piece)) = some piece := by
  have hstop := cutAt?_append (front ++ piece) back
  rw [List.append_assoc] at hstop
  rw [slice?, hstop, Option.bind_some, cutAt?_append]
  rfl

/-- A slice from the start of a text. -/
theorem slice?_front (piece back : List Char) :
    slice? (piece ++ back) 0 (utf8Len piece) = some piece :=
  slice?_append [] piece back

/-- A slice that begins behind a character of one byte. -/
theorem slice?_behind {c : Char} (hc : c.utf8Size = 1) (front piece back : List Char) :
    slice? (front ++ c :: (piece ++ back)) (utf8Len front + 1)
      (utf8Len front + 1 + utf8Len piece) = some piece := by
  have hslice := slice?_append (front ++ [c]) piece back
  simp only [String.utf8Len_append, String.utf8Len_cons, String.utf8Len_nil, hc,
    Nat.zero_add] at hslice
  rw [List.append_assoc] at hslice
  exact hslice

theorem slice?_eq_some_iff {text piece : List Char} {start stop : Nat} :
    slice? text start stop = some piece <->
      exists front back, text = front ++ (piece ++ back) ∧ utf8Len front = start ∧
        utf8Len (front ++ piece) = stop := by
  constructor
  · intro h
    rcases Option.bind_eq_some_iff.mp h with ⟨⟨upTo, back⟩, hstop, hpiece⟩
    rcases Option.map_eq_some_iff.mp hpiece with ⟨⟨front, middle⟩, hstart, rfl⟩
    rcases eq_append_of_cutAt? hstop with ⟨rfl, rfl⟩
    rcases eq_append_of_cutAt? hstart with ⟨rfl, rfl⟩
    exact ⟨front, back, List.append_assoc front middle back, rfl, rfl⟩
  · rintro ⟨front, back, rfl, rfl, rfl⟩
    exact slice?_append front piece back

/-- A slice can be taken between two positions of a text that stand in order. -/
theorem isSome_slice?_iff {text : List Char} {start stop : Nat} :
    (slice? text start stop).isSome = true <->
      start ≤ stop ∧ String.Pos.Raw.IsValid (String.ofList text) ⟨start⟩ ∧
        String.Pos.Raw.IsValid (String.ofList text) ⟨stop⟩ := by
  rw [← isSome_cutAt?_iff, ← isSome_cutAt?_iff]
  simp only [Option.isSome_iff_exists]
  constructor
  · rintro ⟨piece, hpiece⟩
    rcases slice?_eq_some_iff.mp hpiece with ⟨front, back, rfl, rfl, rfl⟩
    have hstop := cutAt?_append (front ++ piece) back
    rw [List.append_assoc] at hstop
    exact ⟨by simp, ⟨_, cutAt?_append front (piece ++ back)⟩, ⟨_, hstop⟩⟩
  · rintro ⟨hle, ⟨⟨front, rest⟩, hstart⟩, ⟨⟨upTo, back⟩, hstop⟩⟩
    rcases eq_append_of_cutAt? hstart with ⟨rfl, rfl⟩
    rcases eq_append_of_cutAt? hstop with ⟨htext, rfl⟩
    have hprefix : front <+: upTo := by
      rcases List.prefix_or_prefix_of_prefix (List.prefix_append front rest)
        (htext ▸ List.prefix_append upTo back) with hfront | ⟨more, rfl⟩
      · exact hfront
      · have hmore : more = [] := by
          rw [String.utf8Len_append] at hle
          exact String.utf8Len_eq_zero.mp (by omega)
        exact ⟨[], by simp [hmore]⟩
    rcases hprefix with ⟨piece, rfl⟩
    rw [htext, List.append_assoc]
    exact ⟨piece, slice?_append front piece back⟩

end Text
end Contracts
