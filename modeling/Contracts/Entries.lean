/-!
# Ordered entries

A list of keyed entries in which every key stands once, in the order of first insertion.
Giving a key again replaces its value where it stands.
-/

namespace Contracts

/-- Values under text keys, in order of first insertion. -/
abbrev Entries (α : Type) := List (String × α)

namespace Entries

variable {α : Type}

/-- The entries with the value of one key set: in place when the key is there, else at the end. -/
def put (key : String) (value : α) : Entries α -> Entries α
  | [] =>
      [(key, value)]
  | (k, v) :: rest =>
      if k = key then (key, value) :: rest else (k, v) :: put key value rest

/-- The entries that a list of pairs leaves when put in order. -/
def ofPairs (pairs : List (String × α)) : Entries α :=
  pairs.foldl (fun entries pair => put pair.1 pair.2 entries) []

def get? (key : String) (entries : Entries α) : Option α :=
  List.lookup key entries

def keys (entries : Entries α) : List String :=
  entries.map Prod.fst

@[simp] theorem ofPairs_nil : ofPairs ([] : List (String × α)) = [] := rfl

theorem ofPairs_concat (pairs : List (String × α)) (key : String) (value : α) :
    ofPairs (pairs ++ [(key, value)]) = put key value (ofPairs pairs) := by
  simp [ofPairs]

theorem get?_put_self (key : String) (value : α) (entries : Entries α) :
    get? key (put key value entries) = some value := by
  induction entries with
  | nil =>
      simp [put, get?]
  | cons pair rest ih =>
      obtain ⟨k, v⟩ := pair
      by_cases h : k = key
      · simp [put, get?, h]
      · have hb : (key == k) = false := by simpa using fun e => h e.symm
        simpa [put, get?, h, List.lookup_cons, hb] using ih

theorem get?_put_of_ne {key other : String} (value : α) (entries : Entries α)
    (h : other ≠ key) : get? other (put key value entries) = get? other entries := by
  have ho : (other == key) = false := by simpa using h
  induction entries with
  | nil =>
      simp [put, get?, List.lookup_cons, ho]
  | cons pair rest ih =>
      obtain ⟨k, v⟩ := pair
      by_cases hk : k = key
      · subst hk
        simp [put, get?, List.lookup_cons, ho]
      · simp only [put, hk, if_false, get?, List.lookup_cons]
        split
        · rfl
        · exact ih

theorem keys_put (key : String) (value : α) (entries : Entries α) :
    keys (put key value entries) =
      if key ∈ keys entries then keys entries else keys entries ++ [key] := by
  induction entries with
  | nil =>
      simp [put, keys]
  | cons pair rest ih =>
      obtain ⟨k, v⟩ := pair
      by_cases hk : k = key
      · simp [put, keys, hk]
      · have hne : key ≠ k := fun e => hk e.symm
        simp only [keys] at ih
        by_cases hr : key ∈ rest.map Prod.fst
        · simp [put, keys, hk, ih, hr]
        · simp [put, keys, hk, hne, ih, hr]

end Entries
end Contracts
