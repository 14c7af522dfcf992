import Mathlib.Data.List.Basic
import Mathlib.Data.List.Induction
import Contracts.Entries

/-!
# Ordered entries

A key that is put in order keeps the place of its first occurrence and the value of its last one.
Putting in order makes up no entry, and leaves pairs whose keys differ as they are.
-/

namespace Contracts
namespace Entries

variable {α : Type}

/-! ## Looking up -/

theorem mem_of_get? {key : String} {value : α} {entries : Entries α}
    (h : get? key entries = some value) : (key, value) ∈ entries := by
  induction entries with
  | nil =>
      cases h
  | cons pair rest ih =>
      obtain ⟨k, v⟩ := pair
      unfold get? at h ih
      rw [List.lookup_cons] at h
      cases hk : key == k with
      | true =>
          rw [hk] at h
          have hkey : key = k := by simpa using hk
          have hvalue : v = value := by simpa using h
          rw [hkey, hvalue]
          exact List.mem_cons_self
      | false =>
          rw [hk] at h
          exact List.mem_cons_of_mem _ (ih h)

theorem get?_of_mem {entries : Entries α} (hkeys : (entries.map Prod.fst).Nodup)
    {key : String} {value : α} (h : (key, value) ∈ entries) : get? key entries = some value := by
  induction entries with
  | nil =>
      cases h
  | cons pair rest ih =>
      obtain ⟨k, v⟩ := pair
      rw [List.map_cons, List.nodup_cons] at hkeys
      unfold get? at ih ⊢
      rw [List.lookup_cons]
      rcases List.mem_cons.mp h with h | h
      · cases h
        rw [beq_self_eq_true]
      · have hother : (key == k) = false := by
          rw [beq_eq_false_iff_ne]
          intro heq
          apply hkeys.1
          rw [← heq]
          exact List.mem_map.mpr ⟨(key, value), h, rfl⟩
        rw [hother]
        exact ih hkeys.2 h

theorem get?_eq_none_iff {key : String} {entries : Entries α} :
    get? key entries = none <-> key ∉ keys entries := by
  induction entries with
  | nil =>
      simp [get?, keys]
  | cons pair rest ih =>
      obtain ⟨k, v⟩ := pair
      unfold get? keys at ih ⊢
      rw [List.lookup_cons, List.map_cons, List.mem_cons, not_or]
      cases hk : key == k with
      | true =>
          have hkey : key = k := by simpa using hk
          simp [hkey]
      | false =>
          have hkey : key ≠ k := by simpa using hk
          simp [hkey, ih]

/-! ## Putting one entry -/

theorem mem_put {key : String} {value : α} {entries : Entries α} {entry : String × α}
    (h : entry ∈ put key value entries) : entry = (key, value) ∨ entry ∈ entries := by
  induction entries with
  | nil =>
      exact Or.inl (List.mem_singleton.mp h)
  | cons pair rest ih =>
      obtain ⟨k, v⟩ := pair
      unfold put at h
      split at h
      · rcases List.mem_cons.mp h with h | h
        · exact Or.inl h
        · exact Or.inr (List.mem_cons_of_mem _ h)
      · rcases List.mem_cons.mp h with h | h
        · rw [h]
          exact Or.inr List.mem_cons_self
        · rcases ih h with h | h
          · exact Or.inl h
          · exact Or.inr (List.mem_cons_of_mem _ h)

theorem put_of_notMem {key : String} {entries : Entries α} (h : key ∉ entries.map Prod.fst)
    (value : α) : put key value entries = entries ++ [(key, value)] := by
  induction entries with
  | nil =>
      rfl
  | cons pair rest ih =>
      obtain ⟨k, v⟩ := pair
      rw [List.map_cons, List.mem_cons, not_or] at h
      unfold put
      rw [if_neg (Ne.symm h.1), ih h.2]
      rfl

/-! ## Putting pairs in order -/

/-- Putting pairs in order makes up no entry. -/
theorem mem_of_mem_ofPairs {pairs : List (String × α)} {entry : String × α}
    (h : entry ∈ ofPairs pairs) : entry ∈ pairs := by
  induction pairs using List.reverseRecOn with
  | nil =>
      exact h
  | append_singleton front pair ih =>
      obtain ⟨key, value⟩ := pair
      rw [ofPairs_concat] at h
      rcases mem_put h with h | h
      · rw [h]
        exact List.mem_append_right front List.mem_cons_self
      · exact List.mem_append_left _ (ih h)

theorem ofPairs_of_nodup {pairs : List (String × α)} (h : (pairs.map Prod.fst).Nodup) :
    ofPairs pairs = pairs := by
  induction pairs using List.reverseRecOn with
  | nil =>
      rfl
  | append_singleton front pair ih =>
      rw [List.map_append, List.nodup_append] at h
      rcases h with ⟨hfront, _, hdisjoint⟩
      have hkey : pair.1 ∉ front.map Prod.fst := by
        intro hmem
        exact hdisjoint pair.1 hmem pair.1 List.mem_cons_self rfl
      rw [ofPairs_concat, ih hfront, put_of_notMem hkey]

theorem keys_concat (front : List (String × α)) (pair : String × α) :
    keys (front ++ [pair]) = keys front ++ [pair.1] :=
  List.map_append

theorem keys_ofPairs_concat (pairs : List (String × α)) (key : String) (value : α) :
    keys (ofPairs (pairs ++ [(key, value)])) =
      if key ∈ keys (ofPairs pairs) then keys (ofPairs pairs)
      else keys (ofPairs pairs) ++ [key] := by
  rw [ofPairs_concat, keys_put]

theorem mem_keys_ofPairs (key : String) (pairs : List (String × α)) :
    key ∈ keys (ofPairs pairs) <-> key ∈ keys pairs := by
  induction pairs using List.reverseRecOn with
  | nil =>
      rfl
  | append_singleton front pair ih =>
      rw [keys_ofPairs_concat]
      rw [keys_concat, List.mem_append, List.mem_singleton, ← ih]
      split
      · rename_i hpair
        constructor
        · exact Or.inl
        · rintro (h | rfl)
          · exact h
          · exact hpair
      · rw [List.mem_append, List.mem_singleton]

/-- The keys stand in the order in which they first occur among the pairs. -/
theorem ordered_keys_ofPairs (pairs : List (String × α)) :
    (keys (ofPairs pairs)).Pairwise fun k l => (keys pairs).idxOf k < (keys pairs).idxOf l := by
  induction pairs using List.reverseRecOn with
  | nil =>
      exact List.Pairwise.nil
  | append_singleton front pair ih =>
      -- A further pair moves no first occurrence.
      have hsame : forall k, k ∈ keys (ofPairs front) ->
          (keys (front ++ [pair])).idxOf k = (keys front).idxOf k := by
        intro k hk
        rw [keys_concat]
        exact List.idxOf_append_of_mem ((mem_keys_ofPairs k front).mp hk)
      have hfront : (keys (ofPairs front)).Pairwise fun k l =>
          (keys (front ++ [pair])).idxOf k < (keys (front ++ [pair])).idxOf l := by
        apply ih.imp_of_mem
        intro k l hk hl hlt
        rw [hsame k hk, hsame l hl]
        exact hlt
      rw [keys_ofPairs_concat]
      split
      · exact hfront
      · rename_i hnew
        apply List.pairwise_append.mpr
        refine ⟨hfront, List.pairwise_singleton _ _, ?_⟩
        intro k hk l hl
        rw [List.mem_singleton.mp hl, hsame k hk, keys_concat,
          List.idxOf_append_of_notMem (mt (mem_keys_ofPairs pair.1 front).mpr hnew)]
        exact Nat.lt_of_lt_of_le (List.idxOf_lt_length_of_mem ((mem_keys_ofPairs k front).mp hk))
          (Nat.le_add_right _ _)

/-- Of several pairs with one key the last one gives the value. -/
theorem get?_ofPairs_append_cons {key : String} {value : α} (front : List (String × α))
    {back : List (String × α)} (hlast : key ∉ keys back) :
    get? key (ofPairs (front ++ (key, value) :: back)) = some value := by
  induction back using List.reverseRecOn with
  | nil =>
      rw [ofPairs_concat, get?_put_self]
  | append_singleton back pair ih =>
      rw [keys_concat, List.mem_append, not_or, List.mem_singleton] at hlast
      have hassoc : front ++ (key, value) :: (back ++ [pair]) =
          (front ++ (key, value) :: back) ++ [(pair.1, pair.2)] := by
        rw [List.append_assoc]
        rfl
      rw [hassoc, ofPairs_concat, get?_put_of_ne _ _ hlast.2]
      exact ih hlast.1

end Entries
end Contracts
