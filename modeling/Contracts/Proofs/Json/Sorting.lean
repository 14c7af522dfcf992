import Mathlib.Data.List.Induction
import Mathlib.Data.List.Sort
import Contracts.Json.Basic

/-!
# Sorted entries

Entries placed one by one among sorted entries are sorted by key.  Where no key is given twice
nothing is lost on the way, and as keys that differ stand in one order only, entries that are
sorted already come out as they were.
-/

namespace Contracts
namespace Json

/-- Whether entries stand in increasing order of their keys. -/
def Sorted {α : Type} (entries : List (String × α)) : Prop :=
  entries.Pairwise fun a b => a.1 < b.1

theorem lt_of_not_lt_of_ne {a b : String} (hlt : ¬ a < b) (hne : a ≠ b) : b < a := by
  apply String.not_le.mp
  intro hle
  exact hne (String.le_antisymm hle (String.not_lt.mp hlt))

theorem eq_of_sorted_of_perm {α : Type} {xs ys : List (String × α)} (hxs : Sorted xs)
    (hys : Sorted ys) (h : xs.Perm ys) : xs = ys := by
  apply h.eq_of_pairwise _ hxs hys
  intro a b _ _ hab hba
  exact absurd hba (String.lt_asymm hab)

theorem nodup_keys_of_sorted {α : Type} {entries : List (String × α)} (h : Sorted entries) :
    (entries.map Prod.fst).Nodup := by
  apply List.pairwise_map.mpr
  apply h.imp
  intro a b hlt heq
  rw [heq] at hlt
  exact String.lt_irrefl _ hlt

theorem keys_map {α β : Type} (f : α -> β) (entries : List (String × α)) :
    (entries.map fun e => (e.1, f e.2)).map Prod.fst = entries.map Prod.fst := by
  rw [List.map_map]
  rfl

theorem sorted_map {α β : Type} (f : α -> β) {entries : List (String × α)} (h : Sorted entries) :
    Sorted (entries.map fun e => (e.1, f e.2)) :=
  List.pairwise_map.mpr h

/-- Entries in increasing order of their keys. -/
def sortByKey {α : Type} (entries : List (String × α)) : List (String × α) :=
  entries.insertionSort fun a b => a.1 <= b.1

theorem sortByKey_perm {α : Type} (entries : List (String × α)) :
    (sortByKey entries).Perm entries :=
  List.perm_insertionSort _ entries

theorem sorted_sortByKey {α : Type} {entries : List (String × α)}
    (h : (entries.map Prod.fst).Nodup) : Sorted (sortByKey entries) := by
  have htotal : Std.Total fun a b : String × α => a.1 <= b.1 :=
    ⟨fun a b => String.le_total a.1 b.1⟩
  have htrans : IsTrans (String × α) fun a b => a.1 <= b.1 :=
    ⟨fun _ _ _ hab hbc => String.le_trans hab hbc⟩
  have hle := List.pairwise_insertionSort (fun a b : String × α => a.1 <= b.1) entries
  have hne : (sortByKey entries).Pairwise fun a b => a.1 ≠ b.1 := by
    apply List.pairwise_map.mp
    exact ((sortByKey_perm entries).map Prod.fst).nodup_iff.mpr h
  apply (hle.and hne).imp
  intro a b hab
  exact String.not_le.mp fun hba => hab.2 (String.le_antisymm hab.1 hba)

/-! ## One entry -/

section

variable {key : String} {value : Json} {entries : List (String × Json)}

theorem mem_insertSorted {entry : String × Json} (h : entry ∈ insertSorted key value entries) :
    entry = (key, value) ∨ entry ∈ entries := by
  induction entries with
  | nil =>
      exact Or.inl (List.mem_singleton.mp h)
  | cons pair rest ih =>
      obtain ⟨k, v⟩ := pair
      unfold insertSorted at h
      split at h
      · exact List.mem_cons.mp h
      · split at h
        · rcases List.mem_cons.mp h with h | h
          · exact Or.inl h
          · exact Or.inr (List.mem_cons_of_mem _ h)
        · rcases List.mem_cons.mp h with h | h
          · rw [h]
            exact Or.inr List.mem_cons_self
          · rcases ih h with h | h
            · exact Or.inl h
            · exact Or.inr (List.mem_cons_of_mem _ h)

theorem sorted_insertSorted (h : Sorted entries) : Sorted (insertSorted key value entries) := by
  induction entries with
  | nil =>
      exact List.pairwise_singleton _ _
  | cons pair rest ih =>
      obtain ⟨k, v⟩ := pair
      rcases List.pairwise_cons.mp h with ⟨hfirst, hrest⟩
      unfold insertSorted
      split
      · rename_i hlt
        apply List.pairwise_cons.mpr
        constructor
        · intro e he
          rcases List.mem_cons.mp he with he | he
          · rw [he]
            exact hlt
          · exact String.lt_trans hlt (hfirst e he)
        · exact h
      · split
        · rename_i heq
          apply List.pairwise_cons.mpr
          rw [heq]
          exact ⟨hfirst, hrest⟩
        · rename_i hlt hne
          apply List.pairwise_cons.mpr
          constructor
          · intro e he
            rcases mem_insertSorted he with he | he
            · rw [he]
              exact lt_of_not_lt_of_ne hlt hne
            · exact hfirst e he
          · exact ih hrest

theorem insertSorted_perm (h : key ∉ entries.map Prod.fst) :
    (insertSorted key value entries).Perm ((key, value) :: entries) := by
  induction entries with
  | nil =>
      exact List.Perm.refl _
  | cons pair rest ih =>
      obtain ⟨k, v⟩ := pair
      rw [List.map_cons, List.mem_cons, not_or] at h
      unfold insertSorted
      split
      · exact List.Perm.refl _
      · rw [if_neg h.1]
        exact ((ih h.2).cons (k, v)).trans (List.Perm.swap _ _ _)

end

/-! ## All entries -/

theorem sortEntries_concat (front : List (String × Json)) (pair : String × Json) :
    sortEntries (front ++ [pair]) = insertSorted pair.1 pair.2 (sortEntries front) := by
  simp [sortEntries]

theorem sorted_sortEntries (entries : List (String × Json)) : Sorted (sortEntries entries) := by
  induction entries using List.reverseRecOn with
  | nil =>
      exact List.Pairwise.nil
  | append_singleton front pair ih =>
      rw [sortEntries_concat]
      exact sorted_insertSorted ih

theorem mem_of_mem_sortEntries {entries : List (String × Json)} {entry : String × Json}
    (h : entry ∈ sortEntries entries) : entry ∈ entries := by
  induction entries using List.reverseRecOn with
  | nil =>
      cases h
  | append_singleton front pair ih =>
      rw [sortEntries_concat] at h
      rw [List.mem_append, List.mem_singleton]
      rcases mem_insertSorted h with h | h
      · exact Or.inr h
      · exact Or.inl (ih h)

theorem sortEntries_perm {entries : List (String × Json)}
    (h : (entries.map Prod.fst).Nodup) : (sortEntries entries).Perm entries := by
  induction entries using List.reverseRecOn with
  | nil =>
      exact List.Perm.refl _
  | append_singleton front pair ih =>
      obtain ⟨key, value⟩ := pair
      rw [List.map_append, List.nodup_append] at h
      rcases h with ⟨hfront, _, hdisjoint⟩
      have hperm := ih hfront
      have hkey : key ∉ (sortEntries front).map Prod.fst := by
        intro hmem
        exact hdisjoint key ((hperm.map Prod.fst).mem_iff.mp hmem) key List.mem_cons_self rfl
      rw [sortEntries_concat]
      exact ((insertSorted_perm hkey).trans (hperm.cons _)).trans
        (List.perm_append_singleton _ _).symm

theorem sortEntries_of_sorted {entries : List (String × Json)} (h : Sorted entries) :
    sortEntries entries = entries :=
  eq_of_sorted_of_perm (sorted_sortEntries entries) h (sortEntries_perm (nodup_keys_of_sorted h))

end Json
end Contracts
