import Contracts.Proofs.Value.Documents
import Contracts.Value.Order

/-!
# Handles

The handles of a value are those of its arrays and objects, at any depth.  The value of a document
has handles from the part of the supply that making it used up, so it has no array or object in
common with a value that was there before or is made after.  Arrays and objects are strictly equal
only where they are one, and then the two values have a handle in common.
-/

namespace Contracts

namespace Value

mutual

/-- The arrays and objects of a value, at any depth. -/
def handles : Value -> List Handle
  | array handle items =>
      handle :: handlesOfItems items
  | object handle entries =>
      handle :: handlesOfEntries entries
  | missing =>
      []
  | null =>
      []
  | bool _ =>
      []
  | int _ =>
      []
  | float _ =>
      []
  | str _ =>
      []

def handlesOfItems : List Value -> List Handle
  | [] =>
      []
  | item :: rest =>
      handles item ++ handlesOfItems rest

def handlesOfEntries : List (String × Value) -> List Handle
  | [] =>
      []
  | (_, item) :: rest =>
      handles item ++ handlesOfEntries rest

end

theorem mem_handlesOfEntries {entries : List (String × Value)} {handle : Handle} :
    handle ∈ handlesOfEntries entries <->
      exists e : String × Value, e ∈ entries ∧ handle ∈ e.2.handles := by
  induction entries with
  | nil =>
      exact iff_of_false List.not_mem_nil nofun
  | cons e rest ih =>
      obtain ⟨key, item⟩ := e
      rw [handlesOfEntries, List.mem_append, ih]
      simp only [List.exists_mem_cons_iff]

/-- Putting entries in order brings in no further handle. -/
theorem handlesOfEntries_ofPairs (pairs : List (String × Value)) :
    handlesOfEntries (Entries.ofPairs pairs) ⊆ handlesOfEntries pairs := by
  intro handle h
  rcases mem_handlesOfEntries.mp h with ⟨e, he, hhandle⟩
  exact mem_handlesOfEntries.mpr ⟨e, Entries.mem_of_mem_ofPairs he, hhandle⟩

/-- An array or object that is strictly equal to a value is a part of it. -/
theorem exists_handle_of_strictEquals {x y : Value} (hx : x.isComposite = true)
    (h : x.strictEquals y = true) : exists handle, handle ∈ x.handles ∧ handle ∈ y.handles := by
  cases x with
  | array handle items =>
      cases y with
      | array other _ =>
          have hsame : handle = other := beq_iff_eq.mp h
          rw [hsame, handles, handles]
          exact ⟨other, List.mem_cons_self, List.mem_cons_self⟩
      | _ =>
          cases h
  | object handle entries =>
      cases y with
      | object other _ =>
          have hsame : handle = other := beq_iff_eq.mp h
          rw [hsame, handles, handles]
          exact ⟨other, List.mem_cons_self, List.mem_cons_self⟩
      | _ =>
          cases h
  | _ =>
      cases hx

end Value

/-! ## Handles that are drawn -/

/-- Whether handles were drawn while a supply went down to another one. -/
structure Supply.Gives (before after : Supply) (drawn : List Handle) : Prop where
  next_le : before.next <= after.next
  within : forall handle, handle ∈ drawn ->
    before.next <= handle.index ∧ handle.index < after.next

namespace Supply

variable {s t u : Supply} {front back : List Handle}

theorem gives_nil (s : Supply) : Gives s s [] :=
  ⟨Nat.le_refl _, nofun⟩

theorem gives_handle (s : Supply) :
    Gives s (Fresh.handle s).2 [(Fresh.handle s).1] := by
  refine ⟨Nat.le_succ _, ?_⟩
  intro handle h
  rw [List.mem_singleton.mp h]
  exact ⟨Nat.le_refl _, Nat.lt_succ_self _⟩

theorem gives_append (hfront : Gives s t front) (hback : Gives t u back) :
    Gives s u (front ++ back) := by
  have hle := hfront.next_le
  have hle' := hback.next_le
  refine ⟨Nat.le_trans hle hle', ?_⟩
  intro handle h
  rcases List.mem_append.mp h with h | h
  · have hwithin := hfront.within handle h
    omega
  · have hwithin := hback.within handle h
    omega

theorem gives_of_subset (h : Gives s t back) (hsubset : front ⊆ back) : Gives s t front :=
  ⟨h.next_le, fun handle hmem => h.within handle (hsubset hmem)⟩

/-- What is drawn later is not what was drawn before. -/
theorem not_mem_of_gives (hfront : Gives s t front) (hback : Gives t u back) {handle : Handle}
    (h : handle ∈ front) : handle ∉ back := by
  intro hmem
  have hwithin := hfront.within handle h
  have hwithin' := hback.within handle hmem
  omega

variable {α β : Type} {f : α -> Fresh β} (drawn : β -> List Handle)

theorem gives_mapM (xs : List α)
    (hf : forall x, x ∈ xs -> forall s, Gives s (f x s).2 (drawn (f x s).1)) (s : Supply) :
    Gives s (xs.mapM f s).2 ((xs.mapM f s).1.flatMap drawn) := by
  induction xs generalizing s with
  | nil =>
      exact gives_nil s
  | cons x xs ih =>
      rcases List.forall_mem_cons.mp hf with ⟨hx, hxs⟩
      rw [Fresh.mapM_cons, List.flatMap_cons]
      exact gives_append (hx s) (ih hxs _)

theorem gives_optionMapM (o : Option α)
    (hf : forall x, o = some x -> forall s, Gives s (f x s).2 (drawn (f x s).1)) (s : Supply) :
    Gives s (o.mapM f s).2 ((o.mapM f s).1.toList.flatMap drawn) := by
  cases o with
  | none =>
      exact gives_nil s
  | some x =>
      show Gives s (f x s).2 (drawn (f x s).1 ++ [])
      rw [List.append_nil]
      exact hf x rfl s

end Supply

/-! ## Values of documents -/

namespace Value

mutual

/-- The arrays and objects of a document are all new. -/
theorem gives_ofJson (json : Json) (s : Supply) :
    Supply.Gives s (ofJson json s).2 (ofJson json s).1.handles := by
  cases json with
  | array items =>
      have hitems := gives_ofItems items s
      rw [ofJson]
      apply Supply.gives_of_subset (Supply.gives_append hitems (Supply.gives_handle _))
      show (Value.array _ (ofItems items s).1).handles ⊆ _
      rw [handles]
      exact List.cons_subset.mpr ⟨by simp, List.subset_append_left _ _⟩
  | object entries =>
      have hentries := gives_ofEntries entries s
      rw [ofJson]
      apply Supply.gives_of_subset (Supply.gives_append hentries (Supply.gives_handle _))
      show (Value.object _ (Entries.ofPairs (ofEntries entries s).1)).handles ⊆ _
      rw [handles]
      refine List.cons_subset.mpr ⟨by simp, ?_⟩
      exact List.Subset.trans (handlesOfEntries_ofPairs _) (List.subset_append_left _ _)
  | _ =>
      rw [ofJson]
      exact Supply.gives_nil s

theorem gives_ofItems (items : List Json) (s : Supply) :
    Supply.Gives s (ofItems items s).2 (handlesOfItems (ofItems items s).1) := by
  cases items with
  | nil =>
      rw [ofItems]
      exact Supply.gives_nil s
  | cons item rest =>
      have hgives :=
        Supply.gives_append (gives_ofJson item s) (gives_ofItems rest (ofJson item s).2)
      rw [ofItems]
      exact hgives

theorem gives_ofEntries (entries : List (String × Json)) (s : Supply) :
    Supply.Gives s (ofEntries entries s).2 (handlesOfEntries (ofEntries entries s).1) := by
  cases entries with
  | nil =>
      rw [ofEntries]
      exact Supply.gives_nil s
  | cons e rest =>
      obtain ⟨key, item⟩ := e
      have hgives :=
        Supply.gives_append (gives_ofJson item s) (gives_ofEntries rest (ofJson item s).2)
      rw [ofEntries]
      exact hgives

end

end Value
end Contracts
