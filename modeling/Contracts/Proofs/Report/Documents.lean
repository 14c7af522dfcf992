import Contracts.Proofs.Json.Shapes
import Contracts.Proofs.Value.Contents
import Contracts.Report

/-!
# Snapshots written and read

A snapshot is written as an object of its fields, with the target left out when there is none.  A
target of `null` is written like any other, but read as no target at all.  So a snapshot whose
values JSON can say comes back with the same contents, but for a target of `null`.
-/

namespace Contracts

open Json (reread?)
open Json.Shape
open Json.Reader (Written)

/-- Whether a value comes back from a text where it may nest so deep. -/
structure Value.Storable (room : Nat) (v : Value) : Prop where
  depth : v.depth <= room
  keys : v.keysDiffer = true
  lossless : v.lossless = true

theorem Value.sameContents_ofJson_toJson {room : Nat} {v : Value} (h : v.Storable room)
    (supply : Supply) : (Value.ofJson v.toJson supply).1.sameContents v = true := by
  apply sameContents_of_bare h.keys h.lossless
  rw [bare_ofJson (fits_toJson v h.depth), contents_toJson v h.keys]

theorem Value.toJson_eq_null_iff {v : Value} (h : v.lossless = true) :
    v.toJson = .null <-> v = .null := by
  cases v with
  | missing =>
      cases h
  | null =>
      exact iff_of_true rfl rfl
  | float x =>
      have hfinite : x.isFinite = true := h
      simp [toJson, hfinite]
  | _ =>
      simp [toJson]

namespace Snapshot

/-! ## Fields -/

/-- The target that is read from where a target was written. -/
def target? : Json -> Option Json
  | .null =>
      none
  | json =>
      some json

theorem target?_of_ne {json : Json} (h : json ≠ .null) : target? json = some json := by
  cases json with
  | null =>
      exact absurd rfl h
  | _ =>
      rfl

def idField : Json.Shape.Field (Snapshot Json) :=
  .setting "id" true string fun id s => { s with id := id }

def passField : Json.Shape.Field (Snapshot Json) :=
  .setting "pass" true bool fun pass s => { s with pass := pass }

def valueField : Json.Shape.Field (Snapshot Json) :=
  .setting "value" true any fun value s => { s with value := value }

def againstField : Json.Shape.Field (Snapshot Json) :=
  .setting "against" false (nullable any) fun against s => { s with against := against }

def descriptionField : Json.Shape.Field (Snapshot Json) :=
  .setting "description" true string fun description s => { s with description := description }

theorem fields_record :
    record.fields = [idField, passField, valueField, againstField, descriptionField] := rfl

/-- The fields that a snapshot is written with. -/
def filled (s : Snapshot Json) : List (Filled (Snapshot Json)) :=
  ⟨idField, .str s.id, fun t => { t with id := s.id }⟩ ::
    ⟨passField, .bool s.pass, fun t => { t with pass := s.pass }⟩ ::
      ⟨valueField, s.value, fun t => { t with value := s.value }⟩ ::
        (Filled.optional againstField (fun json => json)
            (fun json t => { t with against := target? json }) s.against ++
          [⟨descriptionField, .str s.description,
            fun t => { t with description := s.description }⟩])

theorem toJson_eq (s : Snapshot Json) : s.toJson = .object (s.filled.map Filled.entry) := by
  obtain ⟨id, pass, value, against, description⟩ := s
  cases against <;> rfl

theorem apply_filled (s : Snapshot Json) :
    Filled.apply s.filled record.blank = { s with against := s.against.bind target? } := by
  obtain ⟨id, pass, value, against, description⟩ := s
  cases against <;> rfl

theorem filled_sublist (s : Snapshot Json) :
    (s.filled.map Filled.field).Sublist record.fields := by
  unfold filled
  rw [List.map_cons, List.map_cons, List.map_cons, List.map_append]
  exact ((((Filled.optional_sublist ..).append (List.Sublist.refl _)).cons_cons
    valueField).cons_cons passField).cons_cons idField

theorem required_filled (s : Snapshot Json) : forall field, field ∈ record.fields ->
    field.required = true -> field.name ∈ s.filled.map (·.field.name) := by
  rw [fields_record]
  simp only [List.forall_mem_cons]
  unfold filled
  rw [List.map_cons, List.map_cons, List.map_cons, List.map_append]
  refine ⟨fun _ => ?_, fun _ => ?_, fun _ => ?_, nofun, fun _ => ?_, by nofun⟩
  · exact .head _
  · exact .tail _ (.head _)
  · exact .tail _ (.tail _ (.head _))
  · exact .tail _ (.tail _ (.tail _ (List.mem_append_right _ (.head _))))

/-! ## Reading what was written -/

/-- Whether the documents in a snapshot fit where its fields have so much room. -/
structure Fits (room : Nat) (s : Snapshot Json) : Prop where
  value : Json.Fits room s.value
  against : forall json, s.against = some json -> Json.Fits room json

theorem written_target {room : Nat} {json : Json} (h : Json.Fits room json)
    (hstable : json.Stable) :
    Written (nullable any room) json.compact (target? json) := by
  by_cases hnull : json = .null
  · rw [hnull]
    exact written_nullable_null any room
  · rw [target?_of_ne hnull]
    exact written_nullable (written_any h hstable) (head?_compact_ne h hstable hnull)

theorem filled_reads {room : Nat} {s : Snapshot Json} (h : s.Fits room)
    (hstable : forall f, f ∈ s.filled -> f.json.Stable) :
    forall f, f ∈ s.filled -> f.Reads room := by
  unfold filled at hstable ⊢
  simp only [List.forall_mem_append, List.forall_mem_cons] at hstable ⊢
  rcases hstable with ⟨_, _, hvalue, hagainst, _⟩
  refine ⟨?_, ?_, ?_, ?_, ?_, by nofun⟩
  · exact written_setting (written_string room s.id)
  · exact written_setting (written_bool room s.pass)
  · exact written_setting (written_any h.value hvalue)
  · intro f hf
    have hstable := hagainst f hf
    rcases Filled.mem_optional hf with ⟨json, hjson, heq⟩
    rw [heq] at hstable ⊢
    exact written_setting (written_target (h.against json hjson) hstable)
  · exact written_setting (written_string room s.description)

theorem written_toJson {room : Nat} {s : Snapshot Json} (h : s.Fits room)
    (hstable : s.toJson.Stable) :
    Written (Json.Shape.record record (room + 1)) s.toJson.compact
      { s with against := s.against.bind target? } := by
  have hwritten := written_fields s.toJson_eq hstable (by decide) s.filled_sublist
    (filled_reads h) s.required_filled
  rw [apply_filled] at hwritten
  exact hwritten

/-! ## Snapshots with the same contents -/

/-- Whether snapshots have the same contents. -/
structure Same (s t : Snapshot Value) : Prop where
  id : s.id = t.id
  pass : s.pass = t.pass
  value : s.value.sameContents t.value = true
  against : Option.Rel (fun x y : Value => x.sameContents y = true) s.against t.against
  description : s.description = t.description

/-- Whether the values of a snapshot come back from the text of the snapshot. -/
structure Storable (s : Snapshot Value) : Prop where
  value : s.value.Storable 126
  against : forall target, s.against = some target -> target.Storable 126

/-- A snapshot without its target if that is `null`. -/
def dropNull (s : Snapshot Value) : Snapshot Value :=
  { s with against := s.against.filter fun target => !target.isNull }

theorem fits_map_toJson {s : Snapshot Value} (h : s.Storable) :
    (s.map Value.toJson).Fits 126 := by
  constructor
  · exact Value.fits_toJson s.value h.value.depth
  · intro json hjson
    rcases Option.map_eq_some_iff.mp hjson with ⟨target, htarget, heq⟩
    rw [← heq]
    exact Value.fits_toJson target (h.against target htarget).depth

theorem Storable.dropNull {s : Snapshot Value} (h : s.Storable) : s.dropNull.Storable := by
  constructor
  · exact h.value
  · intro target htarget
    exact h.against target (Option.filter_eq_some_iff.mp htarget).1

theorem dropNull_of_ne {s : Snapshot Value} (h : s.against ≠ some .null) : s.dropNull = s := by
  obtain ⟨id, pass, value, against, description⟩ := s
  cases against with
  | none =>
      rfl
  | some target =>
      cases target with
      | null =>
          exact absurd rfl h
      | _ =>
          rfl

theorem against_dropNull {s : Snapshot Value} (h : s.against = some .null) :
    s.dropNull.against = none := by
  show s.against.filter _ = none
  rw [h]
  rfl

/-- What is read where a target was written is the target, unless that is `null`. -/
theorem bind_target? {s : Snapshot Value} (h : s.Storable) :
    { s.map Value.toJson with against := (s.map Value.toJson).against.bind target? } =
      s.dropNull.map Value.toJson := by
  by_cases hnull : s.against = some .null
  · show Snapshot.mk _ _ _ ((s.against.map Value.toJson).bind target?) _ =
      Snapshot.mk _ _ _ (s.dropNull.against.map Value.toJson) _
    rw [against_dropNull hnull, hnull]
    rfl
  · rw [dropNull_of_ne hnull]
    show Snapshot.mk _ _ _ ((s.against.map Value.toJson).bind target?) _ =
      Snapshot.mk _ _ _ (s.against.map Value.toJson) _
    cases hagainst : s.against with
    | none =>
        rfl
    | some target =>
        have htarget : target.toJson ≠ .null := by
          intro heq
          rw [Value.toJson_eq_null_iff (h.against target hagainst).lossless] at heq
          rw [heq] at hagainst
          exact hnull hagainst
        rw [Option.map_some, Option.bind_some, target?_of_ne htarget]
        rfl

theorem same_load {s : Snapshot Value} (h : s.Storable) (supply : Supply) :
    Same ((s.map Value.toJson).load supply).1 s := by
  obtain ⟨id, pass, value, against, description⟩ := s
  constructor
  · rfl
  · rfl
  · exact Value.sameContents_ofJson_toJson h.value supply
  · cases against with
    | none =>
        exact Option.Rel.none
    | some target =>
        exact Option.Rel.some (Value.sameContents_ofJson_toJson (h.against target rfl) _)
  · rfl

/-- A snapshot is read back from its text with the same contents, except that a target of `null`
is read as no target. -/
theorem read_written_snapshot {s : Snapshot Value} (hs : s.Storable)
    (hfloats : forall x, x ∈ (s.map Value.toJson).toJson.floats -> reread? x = some x) :
    exists json, read (s.map Value.toJson).toJson.text = .ok json ∧
      forall supply, Same (json.load supply).1 s.dropNull ∧
        (Same (json.load supply).1 s <-> s.against ≠ some .null) := by
  have hwritten := written_toJson (fits_map_toJson hs) hfloats
  rw [bind_target? hs] at hwritten
  refine ⟨s.dropNull.map Value.toJson, Json.Reader.run_written hwritten, ?_⟩
  intro supply
  have hsame := same_load hs.dropNull supply
  refine ⟨hsame, ?_, ?_⟩
  · intro hkept hnull
    have hnone := hsame.against
    have hsome := hkept.against
    rw [against_dropNull hnull] at hnone
    rw [hnull] at hsome
    generalize ((s.dropNull.map Value.toJson).load supply).1.against = target at hnone hsome
    cases hnone
    cases hsome
  · intro hnull
    rw [dropNull_of_ne hnull] at hsame ⊢
    exact hsame

/-- Nested values on both sides, with escapes, keys out of order and a `null` inside the target. -/
theorem read_written_snapshot_nested :
    exists s : Snapshot Value,
      s = ⟨"not equals", true,
        .array ⟨4⟩ [.float (.ofBits 0x8000000000000000), .int Int64.minValue,
          .object ⟨2⟩ [("b", .null), ("a", .array ⟨2⟩ [])]],
        some (.object ⟨4⟩ [("\n", .array ⟨0⟩ [.null, .float (.ofBits 0x3FF8000000000000)])]),
        "\"\\"⟩ ∧
      s.Storable ∧
      exists json, read (s.map Value.toJson).toJson.text = .ok json ∧
        forall supply, Same (json.load supply).1 s := by
  refine ⟨_, rfl, ?_⟩
  have hs : Storable ⟨"not equals", true,
      .array ⟨4⟩ [.float (.ofBits 0x8000000000000000), .int Int64.minValue,
        .object ⟨2⟩ [("b", .null), ("a", .array ⟨2⟩ [])]],
      some (.object ⟨4⟩ [("\n", .array ⟨0⟩ [.null, .float (.ofBits 0x3FF8000000000000)])]),
      "\"\\"⟩ := by
    constructor
    · exact ⟨by decide, rfl, rfl⟩
    · intro target htarget
      cases htarget
      exact ⟨by decide, rfl, rfl⟩
  rcases read_written_snapshot hs (by decide +kernel) with ⟨json, hread, hsame⟩
  exact ⟨hs, json, hread, fun supply => (hsame supply).2.mpr nofun⟩

/-- A target of `null` is written into the text, and gone when the text is read. -/
theorem read_written_nullTarget :
    exists s : Snapshot Value,
      s = ⟨"equals", false, .int 1, some .null, "d: equals(1, null)"⟩ ∧
      s.Storable ∧ (s.map Value.toJson).toJson.floats = [] ∧
      exists json, read (s.map Value.toJson).toJson.text = .ok json ∧
        forall supply, ¬ Same (json.load supply).1 s := by
  refine ⟨_, rfl, ⟨?_, ?_⟩, rfl, ?_⟩
  · exact ⟨by decide, rfl, rfl⟩
  · intro target htarget
    cases htarget
    exact ⟨by decide, rfl, rfl⟩
  have hsample : (match read ((Snapshot.map Value.toJson
      ⟨"equals", false, .int 1, some .null, "d: equals(1, null)"⟩).toJson.text) with
      | .ok json =>
          json.against.isNone
      | .error _ =>
          false) = true := by
    decide +kernel
  split at hsample
  · rename_i json hread
    refine ⟨json, hread, ?_⟩
    obtain ⟨id, pass, value, against, description⟩ := json
    intro supply hsame
    cases against with
    | none =>
        cases hsame.against
    | some target =>
        cases hsample
  · cases hsample

end Snapshot
end Contracts
