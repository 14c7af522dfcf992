import Contracts.Proofs.Value.Documents

/-!
# Values with the same contents

A value is lossless when JSON can say everything of it: no part of it is absent, and no number in
it is infinite or NaN.  What JSON keeps of such a value, the order of keys apart, is the whole
value, so whatever has the contents of what is kept has the contents of the value.
-/

namespace Contracts

theorem Binary64.numEq_self {x : Binary64} (h : x.isFinite = true) : x.numEq x = true := by
  cases x with
  | nan =>
      cases h
  | number negative m =>
      simp [numEq, compare?]

namespace Value

/-! ## Lossless values -/

mutual

/-- Whether JSON can say everything of a value. -/
def lossless : Value -> Bool
  | missing =>
      false
  | null =>
      true
  | bool _ =>
      true
  | int _ =>
      true
  | float x =>
      x.isFinite
  | str _ =>
      true
  | array _ items =>
      losslessItems items
  | object _ entries =>
      losslessEntries entries

def losslessItems : List Value -> Bool
  | [] =>
      true
  | item :: rest =>
      lossless item && losslessItems rest

def losslessEntries : List (String × Value) -> Bool
  | [] =>
      true
  | (_, item) :: rest =>
      lossless item && losslessEntries rest

end

theorem lossless_of_mem_items {items : List Value} (h : losslessItems items = true)
    {item : Value} (hitem : item ∈ items) : item.lossless = true := by
  induction items with
  | nil =>
      cases hitem
  | cons first rest ih =>
      unfold losslessItems at h
      rw [Bool.and_eq_true] at h
      rcases List.mem_cons.mp hitem with hitem | hitem
      · rw [hitem]
        exact h.1
      · exact ih h.2 hitem

theorem lossless_of_mem_entries {entries : List (String × Value)}
    (h : losslessEntries entries = true) {e : String × Value} (he : e ∈ entries) :
    e.2.lossless = true := by
  induction entries with
  | nil =>
      cases he
  | cons first rest ih =>
      obtain ⟨key, value⟩ := first
      unfold losslessEntries at h
      rw [Bool.and_eq_true] at h
      rcases List.mem_cons.mp he with he | he
      · rw [he]
        exact h.1
      · exact ih h.2 he

/-! ## The same contents -/

theorem sameItems_of_bare {xs items : List Value}
    (hitem : forall item, item ∈ items ->
      forall x : Value, x.bare = item.expressible.bare -> x.sameContents item = true)
    (h : xs.map bare = items.map fun item => item.expressible.bare) :
    sameItems xs items = true := by
  induction items generalizing xs with
  | nil =>
      rw [List.map_eq_nil_iff.mp h]
      rfl
  | cons item rest ih =>
      cases xs with
      | nil =>
          cases h
      | cons x xs =>
          rcases List.forall_mem_cons.mp hitem with ⟨hfirst, hrest⟩
          rw [List.map_cons, List.map_cons] at h
          injection h with hx hxs
          rw [sameItems, hfirst x hx, ih hrest hxs]
          rfl

theorem sameEntries_of_forall {xs ys : List (String × Value)}
    (h : forall e, e ∈ xs -> exists y, Entries.get? e.1 ys = some y ∧
      sameContents e.2 y = true) : sameEntries xs ys = true := by
  induction xs with
  | nil =>
      rfl
  | cons first rest ih =>
      obtain ⟨key, x⟩ := first
      rcases List.forall_mem_cons.mp h with ⟨⟨y, hget, hsame⟩, hrest⟩
      rw [sameEntries, ih hrest]
      simp only [hget, hsame, Bool.and_self]

/-- Entries are found by their keys, whatever their order. -/
theorem sameEntries_of_bare {xs entries : List (String × Value)}
    (hkeys : (entries.map Prod.fst).Nodup)
    (hentry : forall e : String × Value, e ∈ entries ->
      forall x : Value, x.bare = e.2.expressible.bare -> x.sameContents e.2 = true)
    (h : (xs.map fun e => (e.1, e.2.bare)).Perm
      (entries.map fun e => (e.1, e.2.expressible.bare))) : sameEntries xs entries = true := by
  apply sameEntries_of_forall
  intro e he
  have hmem := h.mem_iff.mp (List.mem_map_of_mem he)
  rcases List.mem_map.mp hmem with ⟨⟨key, y⟩, hy, heq⟩
  injection heq with hkey hbare
  refine ⟨y, ?_, hentry (key, y) hy e.2 hbare.symm⟩
  rw [← hkey]
  exact Entries.get?_of_mem hkeys hy

theorem exists_items_of_bare {w : Value} {handle : Handle} {items : List Value}
    (h : w.bare = .array handle items) :
    exists k xs, w = .array k xs ∧ xs.map bare = items := by
  cases w with
  | array k xs =>
      rw [bare_array] at h
      exact ⟨k, xs, rfl, by injection h⟩
  | _ =>
      cases h

theorem exists_entries_of_bare {w : Value} {handle : Handle} {entries : List (String × Value)}
    (h : w.bare = .object handle entries) :
    exists k xs, w = .object k xs ∧ (xs.map fun e => (e.1, e.2.bare)) = entries := by
  cases w with
  | object k xs =>
      rw [bare_object] at h
      exact ⟨k, xs, rfl, by injection h⟩
  | _ =>
      cases h

theorem sameContents_plain {v w : Value} (hv : v.isComposite = false)
    (hlossless : v.lossless = true) (h : w.bare = v.expressible.bare) :
    w.sameContents v = true := by
  cases v with
  | array handle items =>
      cases hv
  | object handle entries =>
      cases hv
  | missing =>
      cases hlossless
  | float x =>
      have hfinite : x.isFinite = true := hlossless
      rw [expressible, if_pos hfinite] at h
      cases w with
      | float y =>
          cases h
          exact Binary64.numEq_self hfinite
      | _ =>
          cases h
  | _ =>
      cases w <;> cases h
      simp [sameContents]

/-- What has the contents that JSON keeps of a lossless value has the contents of the value. -/
theorem sameContents_of_bare {v w : Value} (hkeys : v.keysDiffer = true)
    (hlossless : v.lossless = true) (h : w.bare = v.expressible.bare) :
    w.sameContents v = true := by
  induction v using Value.inductOn generalizing w with
  | plain v hv =>
      exact sameContents_plain hv hlossless h
  | array handle items ih =>
      unfold keysDiffer at hkeys
      unfold lossless at hlossless
      rw [expressible_array, bare_array, List.map_map] at h
      rcases exists_items_of_bare h with ⟨k, xs, rfl, hxs⟩
      apply sameItems_of_bare _ hxs
      intro item hitem x hx
      exact ih item hitem (keysDiffer_of_mem_items hkeys hitem)
        (lossless_of_mem_items hlossless hitem) hx
  | object handle entries ih =>
      unfold keysDiffer at hkeys
      unfold lossless at hlossless
      rw [Bool.and_eq_true, decide_eq_true_eq] at hkeys
      rw [expressible_object, bare_object] at h
      rcases exists_entries_of_bare h with ⟨k, xs, rfl, hxs⟩
      have hperm := (Json.sortByKey_perm (entries.map fun e => (e.1, e.2.expressible))).map
        fun e => (e.1, e.2.bare)
      rw [← hxs, List.map_map] at hperm
      have hlength : xs.length = entries.length := by
        simpa using hperm.length_eq
      rw [sameContents, hlength, beq_self_eq_true, Bool.true_and]
      apply sameEntries_of_bare hkeys.1 _ hperm
      intro e he x hx
      exact ih e he (keysDiffer_of_mem_entries hkeys.2 he)
        (lossless_of_mem_entries hlossless he) hx

end Value
end Contracts
