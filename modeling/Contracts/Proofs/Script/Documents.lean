import Contracts.Proofs.Json.Shapes
import Contracts.Proofs.Value.Documents
import Contracts.Script

/-!
# Scripts written and read

A script that was read, from whatever text, fits the room that its reader had: the documents in
it may stand again where they are written.  Written, it is an object of the fields that are
there, and reading that object sets just these fields.  So a script comes back as it was, with
what was absent still absent and a `null` target still a target.
-/

namespace Contracts

open Json (reread?)
open Json.Shape
open Json.Reader (Yields Written)

/-! ## Steps -/

namespace Step

/-- Whether the documents in a step fit where the fields of a step have so much room. -/
structure Fits (room : Nat) (step : Step Json) : Prop where
  enforce : forall args, step.enforce = some args -> Json.Fits room (.array args)
  against : forall json, step.against = some json -> Json.Fits room json

def paramField : Json.Shape.Field (Step Json) :=
  .setting "param" false (nullable string) fun param s => { s with param := param }

def enforceField : Json.Shape.Field (Step Json) :=
  .setting "enforce" false (nullable (list any)) fun enforce s => { s with enforce := enforce }

def checkField : Json.Shape.Field (Step Json) :=
  .setting "check" true string fun check s => { s with check := check }

def againstField : Json.Shape.Field (Step Json) :=
  .setting "against" false any fun against s => { s with against := some against }

def negateField : Json.Shape.Field (Step Json) :=
  .setting "negate" false bool fun negate s => { s with negate := negate }

theorem fields_record :
    record.fields = [paramField, enforceField, checkField, againstField, negateField] := rfl

theorem fits_record (room : Nat) : Yields (Json.Shape.record record (room + 1)) (Fits room) := by
  apply yields_record
  · constructor
    · nofun
    · nofun
  · intro less hroom
    cases hroom
    rw [fields_record]
    simp only [List.forall_mem_cons]
    refine ⟨?_, ?_, ?_, ?_, ?_, by nofun⟩
    · apply yields_setting (Json.Reader.yields_true _)
      intro param s _ hs
      exact ⟨hs.enforce, hs.against⟩
    · apply yields_setting (yields_nullable (fits_array room))
      intro enforce s henforce hs
      exact ⟨henforce, hs.against⟩
    · apply yields_setting (Json.Reader.yields_true _)
      intro check s _ hs
      exact ⟨hs.enforce, hs.against⟩
    · apply yields_setting (Json.Reader.fits_value room)
      intro against s hagainst hs
      constructor
      · exact hs.enforce
      · intro json hjson
        cases hjson
        exact hagainst
    · apply yields_setting (Json.Reader.yields_true _)
      intro negate s _ hs
      exact ⟨hs.enforce, hs.against⟩

/-- The fields that a step is written with. -/
def filled (step : Step Json) : List (Filled (Step Json)) :=
  Filled.optional paramField .str (fun param s => { s with param := some param }) step.param ++
    (Filled.optional enforceField .array (fun enforce s => { s with enforce := some enforce })
        step.enforce ++
      (⟨checkField, .str step.check, fun s => { s with check := step.check }⟩ ::
        (Filled.optional againstField id (fun against s => { s with against := some against })
            step.against ++
          [⟨negateField, .bool step.negate, fun s => { s with negate := step.negate }⟩])))

theorem toJson_eq (step : Step Json) : step.toJson = .object (step.filled.map Filled.entry) := by
  obtain ⟨param, enforce, check, against, negate⟩ := step
  cases param <;> cases enforce <;> cases against <;> rfl

theorem apply_filled (step : Step Json) : Filled.apply step.filled record.blank = step := by
  obtain ⟨param, enforce, check, against, negate⟩ := step
  cases param <;> cases enforce <;> cases against <;> rfl

theorem filled_sublist (step : Step Json) :
    (step.filled.map Filled.field).Sublist record.fields := by
  unfold filled
  rw [List.map_append, List.map_append, List.map_cons, List.map_append]
  exact (Filled.optional_sublist ..).append ((Filled.optional_sublist ..).append
    (((Filled.optional_sublist ..).append (List.Sublist.refl _)).cons_cons checkField))

/-- Every field of a step is read from the value it is written with. -/
theorem filled_reads {room : Nat} {step : Step Json} (h : step.Fits room)
    (hstable : forall f, f ∈ step.filled -> f.json.Stable) :
    forall f, f ∈ step.filled -> f.Reads room := by
  unfold filled at hstable ⊢
  simp only [List.forall_mem_append, List.forall_mem_cons] at hstable ⊢
  rcases hstable with ⟨_, henforce, _, hagainst, _⟩
  refine ⟨?_, ?_, ?_, ?_, ?_, by nofun⟩
  · intro f hf
    rcases Filled.mem_optional hf with ⟨param, _, heq⟩
    rw [heq]
    exact written_setting (written_nullable (written_string room param) (by nofun))
  · intro f hf
    have hstable := henforce f hf
    rcases Filled.mem_optional hf with ⟨args, hargs, heq⟩
    rw [heq] at hstable ⊢
    exact written_setting (written_nullable (written_array (h.enforce args hargs) hstable)
      (by nofun))
  · exact written_setting (written_string room step.check)
  · intro f hf
    have hstable := hagainst f hf
    rcases Filled.mem_optional hf with ⟨json, hjson, heq⟩
    rw [heq] at hstable ⊢
    exact written_setting (written_any (h.against json hjson) hstable)
  · exact written_setting (written_bool room step.negate)

theorem required_filled (step : Step Json) : forall field, field ∈ record.fields ->
    field.required = true -> field.name ∈ step.filled.map (·.field.name) := by
  have hcheck : checkField.name ∈ step.filled.map (·.field.name) := by
    unfold filled
    rw [List.map_append, List.map_append, List.map_cons]
    exact List.mem_append_right _ (List.mem_append_right _ List.mem_cons_self)
  rw [fields_record]
  simp only [List.forall_mem_cons]
  exact ⟨nofun, nofun, fun _ => hcheck, nofun, nofun, nofun⟩

theorem written_toJson {room : Nat} {step : Step Json} (h : step.Fits room)
    (hstable : step.toJson.Stable) :
    Written (Json.Shape.record record (room + 1)) step.toJson.compact step := by
  have hwritten := written_fields step.toJson_eq hstable (by decide) step.filled_sublist
    (filled_reads h) step.required_filled
  rw [apply_filled] at hwritten
  exact hwritten

end Step

/-! ## Scripts -/

namespace Script

/-- Whether the documents in a script fit where the fields of its steps have so much room. -/
structure Fits (room : Nat) (script : Script Json) : Prop where
  policy : forall json, script.policy = some json -> Json.Fits (room + 2) json ∧ json ≠ .null
  checks : forall step, step ∈ script.checks -> step.Fits room

def policyField : Json.Shape.Field (Script Json) :=
  .setting "policy" false (nullable any) fun policy s => { s with policy := policy }

def checksField : Json.Shape.Field (Script Json) :=
  .setting "checks" false (list (Json.Shape.record Step.record)) fun checks s =>
    { s with checks := checks }

theorem fields_record : record.fields = [policyField, checksField] := rfl

theorem fits_record (room : Nat) : Yields (Json.Shape.record record (room + 3)) (Fits room) := by
  apply yields_record
  · constructor
    · nofun
    · nofun
  · intro less hroom
    cases hroom
    rw [fields_record]
    simp only [List.forall_mem_cons]
    refine ⟨?_, ?_, by nofun⟩
    -- A policy that was read is no `null`: written as one, it would be read as absent.
    · apply yields_setting
        ((yields_nullable (Json.Reader.fits_value (room + 2))).and (ne_null_nullable (room + 2)))
      intro policy s hpolicy hs
      constructor
      · intro json hjson
        exact ⟨hpolicy.1 json hjson, hpolicy.2 json hjson⟩
      · exact hs.checks
    · have hsteps : Yields (list (Json.Shape.record Step.record) (room + 2))
          fun steps => forall step, step ∈ steps -> step.Fits room := by
        apply yields_list
        intro less hless
        cases hless
        exact Json.Reader.yields_list (Step.fits_record room) ']'
      apply yields_setting hsteps
      intro checks s hchecks hs
      exact ⟨hs.policy, hchecks⟩

/-- The fields that a script is written with. -/
def filled (script : Script Json) : List (Filled (Script Json)) :=
  Filled.optional policyField id (fun policy s => { s with policy := some policy })
      script.policy ++
    [⟨checksField, .array (script.checks.map Step.toJson),
      fun s => { s with checks := script.checks }⟩]

theorem toJson_eq (script : Script Json) :
    script.toJson = .object (script.filled.map Filled.entry) := by
  obtain ⟨policy, checks⟩ := script
  cases policy <;> rfl

theorem apply_filled (script : Script Json) : Filled.apply script.filled record.blank = script := by
  obtain ⟨policy, checks⟩ := script
  cases policy <;> rfl

theorem filled_sublist (script : Script Json) :
    (script.filled.map Filled.field).Sublist record.fields := by
  unfold filled
  rw [List.map_append]
  exact (Filled.optional_sublist ..).append (List.Sublist.refl _)

theorem written_checks {room : Nat} {steps : List (Step Json)}
    (h : forall step, step ∈ steps -> step.Fits room)
    (hstable : Json.Stable (.array (steps.map Step.toJson))) :
    Written (list (Json.Shape.record Step.record) (room + 2))
      (Json.array (steps.map Step.toJson)).compact steps := by
  have hsteps : List.Forall₂ (Written (Json.Shape.record Step.record (room + 1)))
      (steps.map fun step => step.toJson.compact) steps := by
    rw [List.forall₂_map_left_iff, List.forall₂_same]
    intro step hstep
    exact Step.written_toJson (h step hstep) (hstable.item (List.mem_map_of_mem hstep))
  rw [Json.compact_array, List.map_map]
  exact written_list hsteps

theorem filled_reads {room : Nat} {script : Script Json} (h : script.Fits room)
    (hstable : forall f, f ∈ script.filled -> f.json.Stable) :
    forall f, f ∈ script.filled -> f.Reads (room + 2) := by
  unfold filled at hstable ⊢
  simp only [List.forall_mem_append, List.forall_mem_cons] at hstable ⊢
  rcases hstable with ⟨hpolicy, hchecks, _⟩
  refine ⟨?_, ?_, by nofun⟩
  · intro f hf
    have hstable := hpolicy f hf
    rcases Filled.mem_optional hf with ⟨json, hjson, heq⟩
    rw [heq] at hstable ⊢
    rcases h.policy json hjson with ⟨hfits, hnull⟩
    exact written_setting (written_nullable (written_any hfits hstable)
      (head?_compact_ne hfits hstable hnull))
  · exact written_setting (written_checks h.checks hchecks)

theorem written_toJson {room : Nat} {script : Script Json} (h : script.Fits room)
    (hstable : script.toJson.Stable) :
    Written (Json.Shape.record record (room + 3)) script.toJson.compact script := by
  have hrequired : forall field, field ∈ record.fields -> field.required = true ->
      field.name ∈ script.filled.map (·.field.name) := by
    rw [fields_record]
    simp only [List.forall_mem_cons]
    exact ⟨nofun, nofun, nofun⟩
  have hwritten := written_fields script.toJson_eq hstable (by decide) script.filled_sublist
    (filled_reads h) hrequired
  rw [apply_filled] at hwritten
  exact hwritten

end Script

/-! ## Scripts that are loaded -/

section

variable {γ : Type} {g : Value -> γ} {h : Json -> γ} {room : Nat}
  (hg : forall room json, Json.Fits room json ->
    forall supply, g (Value.ofJson json supply).1 = h json)
include hg

theorem Step.map_load {step : Step Json} (hstep : step.Fits room) (supply : Supply) :
    (step.mapM Value.ofJson supply).1.map g = step.map h := by
  obtain ⟨param, enforce, check, against, negate⟩ := step
  have henforce : forall args, enforce = some args -> forall supply,
      (args.mapM Value.ofJson supply).1.map g = args.map h := by
    intro args hargs supply
    apply Fresh.map_mapM
    intro json hjson
    cases hstep.enforce args hargs with
    | array hitems =>
        exact hg _ json (hitems json hjson)
  have hagainst : forall json, against = some json -> forall supply,
      g (Value.ofJson json supply).1 = h json := by
    intro json hjson
    exact hg _ json (hstep.against json hjson)
  show Step.mk param _ check _ negate = Step.mk param _ check _ negate
  rw [← Fresh.map_optionMapM henforce supply, ← Fresh.map_optionMapM hagainst _]
  rfl

theorem Script.map_load {script : Script Json} (hscript : script.Fits room) (supply : Supply) :
    (script.load supply).1.map g = script.map h := by
  obtain ⟨policy, checks⟩ := script
  have hpolicy : forall json, policy = some json -> forall supply,
      g (Value.ofJson json supply).1 = h json := by
    intro json hjson
    exact hg _ json (hscript.policy json hjson).1
  have hchecks : forall step, step ∈ checks -> forall supply,
      (step.mapM Value.ofJson supply).1.map g = step.map h := by
    intro step hstep
    exact Step.map_load hg (hscript.checks step hstep)
  show Script.mk _ _ = Script.mk _ _
  rw [← Fresh.map_optionMapM hpolicy supply, ← Fresh.map_mapM hchecks _]
  rfl

end

theorem Step.map_id (step : Step Json) : step.map id = step := by
  obtain ⟨param, enforce, check, against, negate⟩ := step
  unfold Step.map
  rw [List.map_id_fun, Option.map_id, Option.map_id]
  rfl

namespace Script

theorem map_id (script : Script Json) : script.map id = script := by
  obtain ⟨policy, checks⟩ := script
  unfold map
  rw [List.map_congr_left fun step _ => Step.map_id step, Option.map_id, List.map_id']
  rfl

/-- A script that was read from a text is read again, as it was, from the text that it is written
as; what is loaded has the same contents both times. -/
theorem read_rewritten {text : String} {script : Script Json} (hread : read text = .ok script)
    (hfloats : forall x, x ∈ script.toJson.floats -> reread? x = some x) (supply : Supply) :
    read ((script.load supply).1.map Value.toJson).toJson.text = .ok script ∧
      forall later, (script.load later).1.map Value.bare =
        (script.load supply).1.map Value.bare := by
  have hfits : script.Fits 124 := (fits_record 124).of_run hread
  have hwritten : (script.load supply).1.map Value.toJson = script := by
    exact (map_load (fun _ _ => Value.toJson_ofJson) hfits supply).trans (map_id script)
  constructor
  · rw [hwritten]
    exact Json.Reader.run_written (written_toJson hfits hfloats)
  · intro later
    rw [map_load (fun _ _ => Value.bare_ofJson) hfits later,
      map_load (fun _ _ => Value.bare_ofJson) hfits supply]

/-- Unknown fields, a step in the form of an array, a `null` target and keys out of order. -/
theorem read_rewritten_mixed :
    exists script,
      read ("\x7b\"x\":[\x7b\x7d],\"policy\":null,\"checks\":[[\"p\",null,\"gt\",null]," ++
          "\x7b\"enforce\":[\x7b\"b\":1.5,\"a\":-0.0\x7d],\"check\":\"eq\",\"z\":0\x7d]\x7d") =
        .ok script ∧
      script.toJson.text =
        "\x7b\"checks\":[\x7b\"param\":\"p\",\"check\":\"gt\",\"against\":null," ++
          "\"negate\":false\x7d,\x7b\"enforce\":[\x7b\"a\":-0.0,\"b\":1.5\x7d]," ++
          "\"check\":\"eq\",\"negate\":false\x7d]\x7d" ∧
      read ((script.load {}).1.map Value.toJson).toJson.text = .ok script := by
  have hsample : (match read
        ("\x7b\"x\":[\x7b\x7d],\"policy\":null,\"checks\":[[\"p\",null,\"gt\",null]," ++
          "\x7b\"enforce\":[\x7b\"b\":1.5,\"a\":-0.0\x7d],\"check\":\"eq\",\"z\":0\x7d]\x7d") with
      | .ok script =>
          script.toJson.text ==
            "\x7b\"checks\":[\x7b\"param\":\"p\",\"check\":\"gt\",\"against\":null," ++
              "\"negate\":false\x7d,\x7b\"enforce\":[\x7b\"a\":-0.0,\"b\":1.5\x7d]," ++
              "\"check\":\"eq\",\"negate\":false\x7d]\x7d" &&
            script.toJson.floats.all fun x => reread? x == some x
      | .error _ =>
          false) = true := by
    decide +kernel
  split at hsample
  · rename_i script hread
    rw [Bool.and_eq_true, List.all_eq_true] at hsample
    have hfloats : forall x, x ∈ script.toJson.floats -> reread? x = some x := by
      intro x hx
      exact eq_of_beq (hsample.2 x hx)
    exact ⟨script, hread, eq_of_beq hsample.1, (read_rewritten hread hfloats {}).1⟩
  · cases hsample

end Script

end Contracts
