import Contracts.Proofs.Entries
import Contracts.Proofs.Json.Documents
import Contracts.Proofs.Value.Structure
import Contracts.Value.Document

/-!
# Values written and read

The value of a document has its contents whatever handles were free when it was made, and its own
document is the one it was made of.  The document of a value, on the other hand, keeps what
`expressible` says: absent values and numbers that are not finite become `null`, the entries of
objects are put in the order of their keys, and nothing else changes.
-/

namespace Contracts

/-! ## Drawing handles in turn -/

theorem Fresh.mapM_cons {α β : Type} (f : α -> Fresh β) (x : α) (xs : List α) (supply : Supply) :
    List.mapM f (x :: xs) supply =
      ((f x supply).1 :: (xs.mapM f (f x supply).2).1, (xs.mapM f (f x supply).2).2) := by
  rw [List.mapM_cons]
  rfl

theorem Fresh.map_mapM {α β γ : Type} {f : α -> Fresh β} {g : β -> γ} {h : α -> γ} {xs : List α}
    (hf : forall x, x ∈ xs -> forall supply, g (f x supply).1 = h x) (supply : Supply) :
    (xs.mapM f supply).1.map g = xs.map h := by
  induction xs generalizing supply with
  | nil =>
      rfl
  | cons x xs ih =>
      rcases List.forall_mem_cons.mp hf with ⟨hx, hxs⟩
      rw [mapM_cons, List.map_cons, List.map_cons, hx, ih hxs]

theorem Fresh.map_optionMapM {α β γ : Type} {f : α -> Fresh β} {g : β -> γ} {h : α -> γ}
    {o : Option α} (hf : forall x, o = some x -> forall supply, g (f x supply).1 = h x)
    (supply : Supply) : (o.mapM f supply).1.map g = o.map h := by
  cases o with
  | none =>
      rfl
  | some x =>
      exact congrArg some (hf x rfl supply)

/-! ## The value of a document -/

namespace Json

mutual

/-- The contents of the value of a document. -/
def contents : Json -> Value
  | null =>
      .null
  | bool b =>
      .bool b
  | int n =>
      .int (Int64.ofInt n)
  | float x =>
      .float x
  | str s =>
      .str s
  | array items =>
      .array ⟨0⟩ (contentsOfItems items)
  | object entries =>
      .object ⟨0⟩ (contentsOfEntries entries)

def contentsOfItems : List Json -> List Value
  | [] =>
      []
  | item :: rest =>
      contents item :: contentsOfItems rest

def contentsOfEntries : List (String × Json) -> List (String × Value)
  | [] =>
      []
  | (key, item) :: rest =>
      (key, contents item) :: contentsOfEntries rest

end

theorem contentsOfItems_eq (items : List Json) : contentsOfItems items = items.map contents := by
  induction items with
  | nil =>
      rfl
  | cons item rest ih =>
      rw [contentsOfItems, ih, List.map_cons]

theorem contentsOfEntries_eq (entries : List (String × Json)) :
    contentsOfEntries entries = entries.map fun e => (e.1, e.2.contents) := by
  induction entries with
  | nil =>
      rfl
  | cons e rest ih =>
      obtain ⟨key, value⟩ := e
      rw [contentsOfEntries, ih, List.map_cons]

theorem contents_array (items : List Json) :
    (array items).contents = .array ⟨0⟩ (items.map contents) := by
  rw [← contentsOfItems_eq]
  rfl

theorem contents_object (entries : List (String × Json)) :
    (object entries).contents = .object ⟨0⟩ (entries.map fun e => (e.1, e.2.contents)) := by
  rw [← contentsOfEntries_eq]
  rfl

end Json

namespace Value

open Json (Fits Sorted)

section

variable (supply : Supply)

theorem ofJson_array (items : List Json) :
    exists handle, (ofJson (.array items) supply).1 = .array handle (ofItems items supply).1 :=
  ⟨_, rfl⟩

theorem ofJson_object (entries : List (String × Json)) :
    exists handle, (ofJson (.object entries) supply).1 =
      .object handle (Entries.ofPairs (ofEntries entries supply).1) :=
  ⟨_, rfl⟩

theorem ofItems_cons (item : Json) (rest : List Json) :
    (ofItems (item :: rest) supply).1 =
      (ofJson item supply).1 :: (ofItems rest (ofJson item supply).2).1 := rfl

theorem ofEntries_cons (key : String) (item : Json) (rest : List (String × Json)) :
    (ofEntries ((key, item) :: rest) supply).1 =
      (key, (ofJson item supply).1) :: (ofEntries rest (ofJson item supply).2).1 := rfl

end

theorem bare_ofItems {items : List Json}
    (h : forall item, item ∈ items -> forall supply, (ofJson item supply).1.bare = item.contents)
    (supply : Supply) :
    (ofItems items supply).1.map bare = items.map Json.contents := by
  induction items generalizing supply with
  | nil =>
      rfl
  | cons item rest ih =>
      rcases List.forall_mem_cons.mp h with ⟨hitem, hrest⟩
      rw [ofItems_cons, List.map_cons, List.map_cons, hitem, ih hrest]

theorem bare_ofEntries {entries : List (String × Json)}
    (h : forall e : String × Json, e ∈ entries ->
      forall supply, (ofJson e.2 supply).1.bare = e.2.contents) (supply : Supply) :
    (ofEntries entries supply).1.map (fun e => (e.1, e.2.bare)) =
      entries.map fun e => (e.1, e.2.contents) := by
  induction entries generalizing supply with
  | nil =>
      rfl
  | cons e rest ih =>
      obtain ⟨key, item⟩ := e
      rcases List.forall_mem_cons.mp h with ⟨hitem, hrest⟩
      rw [ofEntries_cons, List.map_cons, List.map_cons, hitem, ih hrest]

theorem keys_ofEntries (entries : List (String × Json)) (supply : Supply) :
    (ofEntries entries supply).1.map Prod.fst = entries.map Prod.fst := by
  induction entries generalizing supply with
  | nil =>
      rfl
  | cons e rest ih =>
      obtain ⟨key, item⟩ := e
      rw [ofEntries_cons, List.map_cons, List.map_cons, ih]

/-- The contents of a value do not depend on the handles that were free when it was made. -/
theorem bare_ofJson {room : Nat} {json : Json} (h : Fits room json) (supply : Supply) :
    (ofJson json supply).1.bare = json.contents := by
  induction h generalizing supply with
  | null =>
      rfl
  | bool b =>
      rfl
  | int hleast hgreatest =>
      rfl
  | float hx =>
      rfl
  | str s =>
      rfl
  | array _ ih =>
      rename_i items _
      rcases ofJson_array supply items with ⟨handle, hitems⟩
      rw [hitems, bare_array, bare_ofItems ih, Json.contents_array]
  | object hsorted _ ih =>
      rename_i entries _
      have hkeys : ((ofEntries entries supply).1.map Prod.fst).Nodup := by
        rw [keys_ofEntries]
        exact Json.nodup_keys_of_sorted hsorted
      rcases ofJson_object supply entries with ⟨handle, hentries⟩
      rw [hentries, Entries.ofPairs_of_nodup hkeys, bare_object, bare_ofEntries ih,
        Json.contents_object]

/-! ## The document of a value -/

theorem itemsToJson_eq (items : List Value) : itemsToJson items = items.map toJson := by
  induction items with
  | nil =>
      rfl
  | cons item rest ih =>
      rw [itemsToJson, ih, List.map_cons]

theorem entriesToJson_eq (entries : List (String × Value)) :
    entriesToJson entries = entries.map fun e => (e.1, e.2.toJson) := by
  induction entries with
  | nil =>
      rfl
  | cons e rest ih =>
      obtain ⟨key, value⟩ := e
      rw [entriesToJson, ih, List.map_cons]

theorem toJson_array (handle : Handle) (items : List Value) :
    (array handle items).toJson = .array (items.map toJson) := by
  rw [← itemsToJson_eq]
  rfl

theorem toJson_object (handle : Handle) (entries : List (String × Value)) :
    (object handle entries).toJson =
      .object (Json.sortEntries (entries.map fun e => (e.1, e.2.toJson))) := by
  rw [← entriesToJson_eq]
  rfl

/-- A document does not tell which array or object is which. -/
theorem toJson_bare (v : Value) : v.bare.toJson = v.toJson := by
  induction v using Value.inductOn with
  | plain v hv =>
      cases v with
      | array handle items =>
          cases hv
      | object handle entries =>
          cases hv
      | _ =>
          rfl
  | array handle items ih =>
      rw [bare_array, toJson_array, toJson_array, List.map_map]
      exact congrArg Json.array (List.map_congr_left ih)
  | object handle entries ih =>
      rw [bare_object, toJson_object, toJson_object, List.map_map]
      congr 2
      apply List.map_congr_left
      intro e he
      exact congrArg (Prod.mk e.1) (ih e he)

/-- The document of the value of a document is that document. -/
theorem toJson_contents {room : Nat} {json : Json} (h : Fits room json) :
    json.contents.toJson = json := by
  induction h with
  | null =>
      rfl
  | bool b =>
      rfl
  | int hleast hgreatest =>
      rw [Json.contents, toJson]
      exact congrArg Json.int (Int64.toInt_ofInt_of_le hleast hgreatest)
  | float hx =>
      rw [Json.contents, toJson, if_pos hx]
  | str s =>
      rfl
  | array _ ih =>
      rename_i items _
      have hitems : items.map (toJson ∘ Json.contents) = items :=
        (List.map_congr_left ih).trans (List.map_id items)
      rw [Json.contents_array, toJson_array, List.map_map, hitems]
  | object hsorted _ ih =>
      rename_i entries _
      have hentries : (entries.map fun e => (e.1, e.2.contents.toJson)) = entries := by
        apply (List.map_congr_left _).trans (List.map_id entries)
        intro e he
        rw [ih e he]
        rfl
      rw [Json.contents_object, toJson_object, List.map_map]
      show Json.object (Json.sortEntries (entries.map fun e => (e.1, e.2.contents.toJson))) = _
      rw [hentries, Json.sortEntries_of_sorted hsorted]

theorem toJson_ofJson {room : Nat} {json : Json} (h : Fits room json) (supply : Supply) :
    (ofJson json supply).1.toJson = json := by
  rw [← toJson_bare, bare_ofJson h, toJson_contents h]

/-- The document of a value fits where the value is no deeper than the room. -/
theorem fits_toJson (v : Value) {room : Nat} (h : v.depth <= room) : Fits room v.toJson := by
  induction v using Value.inductOn generalizing room with
  | plain v hv =>
      cases v with
      | missing =>
          exact Fits.null
      | null =>
          exact Fits.null
      | bool b =>
          exact Fits.bool b
      | int n =>
          exact Fits.int n.le_toInt n.toInt_lt
      | float x =>
          unfold toJson
          split
          · rename_i hx
            exact Fits.float hx
          · exact Fits.null
      | str s =>
          exact Fits.str s
      | array handle items =>
          cases hv
      | object handle entries =>
          cases hv
  | array handle items ih =>
      unfold depth at h
      cases room with
      | zero =>
          cases h
      | succ room =>
          rw [toJson_array]
          apply Fits.array
          intro json hjson
          rcases List.mem_map.mp hjson with ⟨item, hitem, heq⟩
          rw [← heq]
          exact ih item hitem (Nat.le_trans (depth_le_items hitem) (Nat.le_of_succ_le_succ h))
  | object handle entries ih =>
      unfold depth at h
      cases room with
      | zero =>
          cases h
      | succ room =>
          rw [toJson_object]
          apply Fits.object (Json.sorted_sortEntries _)
          intro entry hentry
          rcases List.mem_map.mp (Json.mem_of_mem_sortEntries hentry) with ⟨e, he, heq⟩
          rw [← heq]
          exact ih e he (Nat.le_trans (depth_le_entries he) (Nat.le_of_succ_le_succ h))

/-! ## What a text keeps of a value -/

mutual

/-- What a JSON text can say of a value. -/
def expressible : Value -> Value
  | missing =>
      .null
  | null =>
      .null
  | bool b =>
      .bool b
  | int n =>
      .int n
  | float x =>
      if x.isFinite then .float x else .null
  | str s =>
      .str s
  | array handle items =>
      .array handle (expressibleItems items)
  | object handle entries =>
      .object handle (Json.sortByKey (expressibleEntries entries))

def expressibleItems : List Value -> List Value
  | [] =>
      []
  | item :: rest =>
      expressible item :: expressibleItems rest

def expressibleEntries : List (String × Value) -> List (String × Value)
  | [] =>
      []
  | (key, item) :: rest =>
      (key, expressible item) :: expressibleEntries rest

end

theorem expressibleItems_eq (items : List Value) :
    expressibleItems items = items.map expressible := by
  induction items with
  | nil =>
      rfl
  | cons item rest ih =>
      rw [expressibleItems, ih, List.map_cons]

theorem expressibleEntries_eq (entries : List (String × Value)) :
    expressibleEntries entries = entries.map fun e => (e.1, e.2.expressible) := by
  induction entries with
  | nil =>
      rfl
  | cons e rest ih =>
      obtain ⟨key, value⟩ := e
      rw [expressibleEntries, ih, List.map_cons]

theorem expressible_array (handle : Handle) (items : List Value) :
    (array handle items).expressible = .array handle (items.map expressible) := by
  rw [← expressibleItems_eq]
  rfl

theorem expressible_object (handle : Handle) (entries : List (String × Value)) :
    (object handle entries).expressible =
      .object handle (Json.sortByKey (entries.map fun e => (e.1, e.2.expressible))) := by
  rw [← expressibleEntries_eq]
  rfl

theorem contents_toJson (v : Value) (h : v.keysDiffer = true) :
    v.toJson.contents = v.expressible.bare := by
  induction v using Value.inductOn with
  | plain v hv =>
      cases v with
      | int n =>
          exact congrArg Value.int (Int64.ofInt_toInt n)
      | float x =>
          unfold toJson expressible
          split
          · rfl
          · rfl
      | array handle items =>
          cases hv
      | object handle entries =>
          cases hv
      | _ =>
          rfl
  | array handle items ih =>
      unfold keysDiffer at h
      rw [toJson_array, Json.contents_array, expressible_array, bare_array, List.map_map,
        List.map_map]
      congr 1
      apply List.map_congr_left
      intro item hitem
      exact ih item hitem (keysDiffer_of_mem_items h hitem)
  | object handle entries ih =>
      unfold keysDiffer at h
      rw [Bool.and_eq_true, decide_eq_true_eq] at h
      rw [toJson_object, Json.contents_object, expressible_object, bare_object]
      have hvalues : (entries.map fun e => (e.1, e.2.toJson.contents)) =
          entries.map fun e => (e.1, e.2.expressible.bare) := by
        apply List.map_congr_left
        intro e he
        rw [ih e he (keysDiffer_of_mem_entries h.2 he)]
      have hnodup : ((entries.map fun e => (e.1, e.2.toJson)).map Prod.fst).Nodup := by
        rw [Json.keys_map]
        exact h.1
      have hnodup' : ((entries.map fun e => (e.1, e.2.expressible)).map Prod.fst).Nodup := by
        rw [Json.keys_map]
        exact h.1
      congr 1
      -- Both sides have the same entries, and these can be sorted in one way only.
      apply Json.eq_of_sorted_of_perm
      · exact Json.sorted_map _ (Json.sorted_sortEntries _)
      · exact Json.sorted_map _ (Json.sorted_sortByKey hnodup')
      · have hleft := (Json.sortEntries_perm hnodup).map fun e => (e.1, e.2.contents)
        have hright := (Json.sortByKey_perm
          (entries.map fun e => (e.1, e.2.expressible))).map fun e => (e.1, e.2.bare)
        rw [List.map_map] at hleft hright
        exact (hleft.trans (List.Perm.of_eq hvalues)).trans hright.symm

/-- A value that is not too deep is read back from its text as what the text can say of it: the
contents are those of the value but for what JSON does not express. -/
theorem read_toJson_text {v : Value} (hdepth : v.depth <= 127) (hkeys : v.keysDiffer = true)
    (hfloats : forall x, x ∈ v.toJson.floats -> Json.reread? x = some x) :
    exists json, Json.read v.toJson.text = .ok json ∧
      forall supply, (ofJson json supply).1.bare = v.expressible.bare := by
  have hfits : Fits Json.nestingLimit v.toJson := fits_toJson v hdepth
  refine ⟨v.toJson, Json.read_text hfits hfloats, ?_⟩
  intro supply
  rw [bare_ofJson hfits, contents_toJson v hkeys]

/-- Everything that JSON does not express, zero with a sign, an integral double beyond 64 bits, the
least integer, keys with escapes and out of order. -/
theorem read_toJson_text_mixed :
    exists json,
      Json.read (object ⟨7⟩ [
        ("b", .array ⟨3⟩ [.missing, .float .nan, .float (.infinity true),
          .float (.ofBits 0x8000000000000000), .float (.ofBits 0x3FF8000000000000),
          .float (.ofBits 0x43E0000000000000)]),
        ("a\"\n", .int Int64.minValue), ("", .object ⟨3⟩ [])]).toJson.text = .ok json ∧
      forall supply, (ofJson json supply).1.bare = .object ⟨0⟩ [
        ("", .object ⟨0⟩ []), ("a\"\n", .int Int64.minValue),
        ("b", .array ⟨0⟩ [.null, .null, .null,
          .float (.ofBits 0x8000000000000000), .float (.ofBits 0x3FF8000000000000),
          .float (.ofBits 0x43E0000000000000)])] :=
  read_toJson_text (by decide) rfl (by decide +kernel)

end Value
end Contracts
