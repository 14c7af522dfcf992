import Contracts.Value.Basic

/-!
# The structure of values

A value is plain data or is built from its items or entries, which is the principle of induction
here.  Its depth is the number of arrays and objects that are open at one time on the way to its
innermost part; in a value that a caller built, no object has a key twice; and its contents are
what stays of it when nobody asks which array or object is which.
-/

namespace Contracts
namespace Value

/-- A value satisfies what plain data does and arrays and objects take over from their parts. -/
theorem inductOn {motive : Value -> Prop}
    (plain : forall v, v.isComposite = false -> motive v)
    (array : forall handle items, (forall item, item ∈ items -> motive item) ->
      motive (.array handle items))
    (object : forall handle entries,
      (forall e : String × Value, e ∈ entries -> motive e.2) -> motive (.object handle entries))
    (v : Value) : motive v := by
  cases v with
  | missing =>
      exact plain _ rfl
  | null =>
      exact plain _ rfl
  | bool b =>
      exact plain _ rfl
  | int n =>
      exact plain _ rfl
  | float x =>
      exact plain _ rfl
  | str s =>
      exact plain _ rfl
  | array handle items =>
      apply array
      intro item hitem
      exact inductOn plain array object item
  | object handle entries =>
      apply object
      intro e he
      exact inductOn plain array object e.2
termination_by sizeOf v
decreasing_by
  · have hitem := List.sizeOf_lt_of_mem hitem
    simp only [Value.array.sizeOf_spec]
    omega
  · have he := List.sizeOf_lt_of_mem he
    have hvalue : sizeOf e = 1 + sizeOf e.1 + sizeOf e.2 := by
      cases e
      rfl
    simp only [Value.object.sizeOf_spec]
    omega

/-! ## Depth -/

mutual

/-- How many arrays and objects are open at one time. -/
def depth : Value -> Nat
  | array _ items =>
      depthOfItems items + 1
  | object _ entries =>
      depthOfEntries entries + 1
  | missing =>
      0
  | null =>
      0
  | bool _ =>
      0
  | int _ =>
      0
  | float _ =>
      0
  | str _ =>
      0

def depthOfItems : List Value -> Nat
  | [] =>
      0
  | item :: rest =>
      max (depth item) (depthOfItems rest)

def depthOfEntries : List (String × Value) -> Nat
  | [] =>
      0
  | (_, item) :: rest =>
      max (depth item) (depthOfEntries rest)

end

theorem depth_le_items {items : List Value} {item : Value} (h : item ∈ items) :
    item.depth <= depthOfItems items := by
  induction items with
  | nil =>
      cases h
  | cons first rest ih =>
      unfold depthOfItems
      rcases List.mem_cons.mp h with h | h
      · rw [h]
        exact Nat.le_max_left _ _
      · exact Nat.le_trans (ih h) (Nat.le_max_right _ _)

theorem depth_le_entries {entries : List (String × Value)} {e : String × Value}
    (h : e ∈ entries) : e.2.depth <= depthOfEntries entries := by
  induction entries with
  | nil =>
      cases h
  | cons first rest ih =>
      obtain ⟨key, value⟩ := first
      unfold depthOfEntries
      rcases List.mem_cons.mp h with h | h
      · rw [h]
        exact Nat.le_max_left _ _
      · exact Nat.le_trans (ih h) (Nat.le_max_right _ _)

/-! ## Keys -/

mutual

/-- Whether every object has each of its keys once. -/
def keysDiffer : Value -> Bool
  | array _ items =>
      keysDifferInItems items
  | object _ entries =>
      decide (entries.map Prod.fst).Nodup && keysDifferInEntries entries
  | missing =>
      true
  | null =>
      true
  | bool _ =>
      true
  | int _ =>
      true
  | float _ =>
      true
  | str _ =>
      true

def keysDifferInItems : List Value -> Bool
  | [] =>
      true
  | item :: rest =>
      keysDiffer item && keysDifferInItems rest

def keysDifferInEntries : List (String × Value) -> Bool
  | [] =>
      true
  | (_, item) :: rest =>
      keysDiffer item && keysDifferInEntries rest

end

theorem keysDiffer_of_mem_items {items : List Value} (h : keysDifferInItems items = true)
    {item : Value} (hitem : item ∈ items) : item.keysDiffer = true := by
  induction items with
  | nil =>
      cases hitem
  | cons first rest ih =>
      unfold keysDifferInItems at h
      rw [Bool.and_eq_true] at h
      rcases List.mem_cons.mp hitem with hitem | hitem
      · rw [hitem]
        exact h.1
      · exact ih h.2 hitem

theorem keysDiffer_of_mem_entries {entries : List (String × Value)}
    (h : keysDifferInEntries entries = true) {e : String × Value} (he : e ∈ entries) :
    e.2.keysDiffer = true := by
  induction entries with
  | nil =>
      cases he
  | cons first rest ih =>
      obtain ⟨key, value⟩ := first
      unfold keysDifferInEntries at h
      rw [Bool.and_eq_true] at h
      rcases List.mem_cons.mp he with he | he
      · rw [he]
        exact h.1
      · exact ih h.2 he

/-! ## Contents -/

mutual

/-- A value with one handle throughout, so that only its contents count. -/
def bare : Value -> Value
  | array _ items =>
      .array ⟨0⟩ (bareItems items)
  | object _ entries =>
      .object ⟨0⟩ (bareEntries entries)
  | missing =>
      .missing
  | null =>
      .null
  | bool b =>
      .bool b
  | int n =>
      .int n
  | float x =>
      .float x
  | str s =>
      .str s

def bareItems : List Value -> List Value
  | [] =>
      []
  | item :: rest =>
      bare item :: bareItems rest

def bareEntries : List (String × Value) -> List (String × Value)
  | [] =>
      []
  | (key, item) :: rest =>
      (key, bare item) :: bareEntries rest

end

theorem bareItems_eq (items : List Value) : bareItems items = items.map bare := by
  induction items with
  | nil =>
      rfl
  | cons item rest ih =>
      rw [bareItems, ih, List.map_cons]

theorem bareEntries_eq (entries : List (String × Value)) :
    bareEntries entries = entries.map fun e => (e.1, e.2.bare) := by
  induction entries with
  | nil =>
      rfl
  | cons e rest ih =>
      obtain ⟨key, value⟩ := e
      rw [bareEntries, ih, List.map_cons]

theorem bare_array (handle : Handle) (items : List Value) :
    (array handle items).bare = .array ⟨0⟩ (items.map bare) := by
  rw [← bareItems_eq]
  rfl

theorem bare_object (handle : Handle) (entries : List (String × Value)) :
    (object handle entries).bare = .object ⟨0⟩ (entries.map fun e => (e.1, e.2.bare)) := by
  rw [← bareEntries_eq]
  rfl

end Value
end Contracts
