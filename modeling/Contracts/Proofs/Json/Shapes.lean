import Contracts.Json.Shape
import Contracts.Proofs.Json.Documents

/-!
# Shapes written and read

A reader of one shape takes what was written in that shape, and all it takes has what the readers
of its parts promise.  For a record this is a law about its fields: one that was written is there
to be read again whatever its place among the others, and one that was left out stays as it is in
the blank record, so a record read from its written fields is the blank one with these set.
-/

namespace Contracts
namespace Json
namespace Shape

open Reader

variable {α β : Type}

/-! ## Plain shapes -/

theorem written_any {room : Nat} {json : Json} (h : Fits room json) (hstable : json.Stable) :
    Written (any room) json.compact json :=
  written_compact h hstable

theorem written_string (room : Nat) (s : String) :
    Written (string room) (Json.str s).compact s := by
  constructor
  · exact opens_cons (by decide) _
  · intro rest _
    unfold string
    rw [compact_str, writeString_append, bind_of_ok (peekToken_cons (by decide) _), if_pos rfl,
      bind_of_ok (next_cons _ _)]
    exact stringRest_written s rest

theorem written_bool (room : Nat) (b : Bool) : Written (bool room) (Json.bool b).compact b := by
  cases b with
  | true =>
      exact ⟨opens_cons (by decide) _, fun _ _ => rfl⟩
  | false =>
      exact ⟨opens_cons (by decide) _, fun _ _ => rfl⟩

theorem written_nullable {read : Shape α} {room : Nat} {text : List Char} {x : α}
    (h : Written (read room) text x) (hhead : text.head? ≠ some 'n') :
    Written (nullable read room) text (some x) := by
  rcases h.opens with ⟨c, tail, htext, hc⟩
  constructor
  · exact h.opens
  · intro rest hrest
    have hn : c ≠ 'n' := by
      intro hn
      rw [htext, hn] at hhead
      exact hhead rfl
    have hread := h.reads rest hrest
    unfold nullable
    rw [htext] at hread ⊢
    rw [List.cons_append] at hread ⊢
    rw [bind_of_ok (peekToken_cons (isSpace_of_opensValue hc) _), if_neg hn, bind_of_ok hread]
    rfl

theorem written_nullable_null (read : Shape α) (room : Nat) :
    Written (nullable read room) Json.null.compact none := by
  exact ⟨opens_cons (by decide) _, fun _ _ => rfl⟩

theorem head?_compact_ne {room : Nat} {json : Json} (h : Fits room json) (hstable : json.Stable)
    (hnull : json ≠ .null) : json.compact.head? ≠ some 'n' := by
  have hwritten := written_compact h hstable
  rcases hwritten.opens with ⟨c, tail, htext, hc⟩
  have hread := hwritten.reads [] stops_nil
  rw [List.append_nil, htext] at hread
  have hiff := null_iff_of_value hread (peekToken_cons (isSpace_of_opensValue hc) tail)
  rw [htext, List.head?_cons]
  intro hn
  exact hnull (hiff.mpr (Option.some.inj hn))

theorem yields_nullable {read : Shape α} {room : Nat} {P : α -> Prop}
    (h : Yields (read room) P) :
    Yields (nullable read room) fun o => forall x, o = some x -> P x := by
  unfold nullable
  apply yields_then
  intro c
  split
  · apply yields_then
    intro _
    apply yields_pure
    intro x hx
    cases hx
  · apply yields_bind h
    intro x hx
    apply yields_pure
    intro y hy
    cases hy
    exact hx

/-- A value that may be absent is never read as `null`. -/
theorem ne_null_nullable (room : Nat) :
    Yields (nullable any room) fun o => forall json, o = some json -> json ≠ .null := by
  constructor
  intro text o rest h json ho
  unfold nullable at h
  rcases exists_of_bind h with ⟨c, left, hpeek, hbehind⟩
  by_cases hc : c = 'n'
  · rw [if_pos hc] at hbehind
    rcases exists_of_bind hbehind with ⟨_, _, _, hnone⟩
    cases hnone
    cases ho
  · rw [if_neg hc] at hbehind
    rcases exists_of_bind hbehind with ⟨x, left', hread, hsome⟩
    cases hsome
    cases ho
    intro hnull
    exact hc ((null_iff_of_value hread (peekToken_again hpeek)).mp hnull)

theorem nested_succ (read : Shape α) (room : Nat) (c : Char) (text : List Char) :
    nested read (room + 1) (c :: text) = read room text := rfl

theorem yields_nested {read : Shape α} {P : α -> Prop} {room : Nat}
    (h : forall less, room = less + 1 -> Yields (read less) P) : Yields (nested read room) P := by
  cases room with
  | zero =>
      exact yields_throw _
  | succ less =>
      unfold nested
      apply yields_then
      intro _
      exact h less rfl

/-- A document of another shape than expected is an error in any case. -/
theorem yields_unexpected (expected : String) (P : α -> Prop) :
    Yields (unexpected expected : Reader α) P := by
  unfold unexpected
  apply yields_then
  intro c
  split
  · exact yields_then fun _ => yields_throw _
  split
  · exact yields_then fun _ => yields_throw _
  split
  · exact yields_then fun _ => yields_throw _
  split
  · exact yields_then fun _ => yields_throw _
  split
  · exact yields_then fun _ => yields_then fun _ => yields_throw _
  split
  · exact yields_throw _
  split
  · exact yields_throw _
  · exact yields_throw _

/-! ## Lists -/

theorem written_list {read : Shape α} {room : Nat} {texts : List (List Char)} {xs : List α}
    (h : List.Forall₂ (Written (read room)) texts xs) :
    Written (list read (room + 1)) ('[' :: listed true texts ++ [']']) xs := by
  constructor
  · exact opens_cons (by decide) _
  · intro rest _
    unfold list
    rw [List.cons_append, List.cons_append, List.append_assoc,
      bind_of_ok (peekToken_cons (by decide) _), if_pos rfl, nested_succ]
    exact list_listed (by decide) h rest

theorem yields_list {read : Shape α} {room : Nat} {P : List α -> Prop}
    (h : forall less, room = less + 1 -> Yields (Reader.list (read less) ']') P) :
    Yields (list read room) P := by
  unfold list
  apply yields_then
  intro c
  split
  · exact yields_nested h
  · exact yields_unexpected _ _

theorem written_array {room : Nat} {items : List Json} (h : Fits room (.array items))
    (hstable : Stable (.array items)) :
    Written (list any room) (Json.array items).compact items := by
  cases h with
  | array h =>
      rename_i room
      have hitems : List.Forall₂ (Written (any room)) (items.map compact) items := by
        rw [List.forall₂_map_left_iff, List.forall₂_same]
        intro item hitem
        exact written_any (h item hitem) (hstable.item hitem)
      rw [compact_array]
      exact written_list hitems

theorem fits_array (room : Nat) :
    Yields (list any room) fun items => Fits room (.array items) := by
  apply yields_list
  intro less hroom
  rw [hroom]
  exact (Reader.yields_list (fits_value less) ']').imp fun items hitems => Fits.array hitems

/-! ## Fields -/

/-- A field that sets a part of a record to what a reader takes. -/
def Field.setting (name : String) (required : Bool) (read : Shape β) (set : β -> α -> α) :
    Field α where
  name := name
  required := required
  read := fun room => do
    let x ← read room
    return set x

section

variable {name : String} {required : Bool} {read : Shape β} {set : β -> α -> α} {room : Nat}

theorem written_setting {text : List Char} {x : β} (h : Written (read room) text x) :
    Written ((Field.setting name required read set).read room) text (set x) := by
  constructor
  · exact h.opens
  · intro rest hrest
    show (read room >>= fun x => pure (set x)) _ = _
    rw [bind_of_ok (h.reads rest hrest)]
    rfl

theorem yields_setting {P : β -> Prop} {Q : α -> Prop} (h : Yields (read room) P)
    (hset : forall x a, P x -> Q a -> Q (set x a)) :
    Yields ((Field.setting name required read set).read room) fun change =>
      forall a, Q a -> Q (change a) := by
  apply yields_bind h
  intro x hx
  apply yields_pure
  intro a ha
  exact hset x a hx ha

end

/-! ## Records that are read -/

section

variable {r : Record α} {room : Nat} {P : α -> Prop}
  (hfields : forall field, field ∈ r.fields ->
    Yields (field.read room) fun change => forall a, P a -> P (change a))
include hfields

theorem yields_entries (bound : Nat) (seen : List String) {built : α} (hbuilt : P built) :
    Yields (r.entries room bound seen built) P := by
  induction bound generalizing seen built with
  | zero =>
      exact yields_throw _
  | succ bound ih =>
      unfold Record.entries
      apply yields_then
      intro more
      split
      · apply yields_then
        intro _
        apply yields_then
        intro name
        split
        · apply yields_then
          intro _
          apply yields_then
          intro _
          exact ih _ hbuilt
        · rename_i field hfield
          split
          · exact yields_throw _
          · apply yields_then
            intro _
            apply yields_bind (hfields field (List.mem_of_find?_eq_some hfield))
            intro change hchange
            exact ih _ (hchange built hbuilt)
      · split
        · exact yields_throw _
        · exact yields_pure hbuilt

theorem yields_positions {fields : List (Field α)} (hsub : forall f, f ∈ fields -> f ∈ r.fields)
    (index : Nat) {built : α} (hbuilt : P built) :
    Yields (r.positions room fields index built) P := by
  induction fields generalizing index built with
  | nil =>
      exact yields_pure hbuilt
  | cons field rest ih =>
      rcases List.forall_mem_cons.mp hsub with ⟨hfield, hrest⟩
      unfold Record.positions
      apply yields_then
      intro more
      split
      · apply yields_bind (hfields field hfield)
        intro change hchange
        exact ih hrest _ (hchange built hbuilt)
      · split
        · exact yields_throw _
        · exact yields_pure hbuilt

end

/-- What holds of a blank record, and is kept by each field that is read, holds of every record
that is read, from an object or from an array. -/
theorem yields_record {r : Record α} {room : Nat} {P : α -> Prop} (hblank : P r.blank)
    (hfields : forall less, room = less + 1 -> forall field, field ∈ r.fields ->
      Yields (field.read less) fun change => forall a, P a -> P (change a)) :
    Yields (record r room) P := by
  unfold record
  apply yields_then
  intro c
  split
  · apply yields_nested
    intro less hroom
    apply yields_then
    intro text
    apply yields_bind (yields_entries (hfields less hroom) _ [] hblank)
    intro built hbuilt
    exact yields_then fun _ => yields_pure hbuilt
  split
  · apply yields_nested
    intro less hroom
    apply yields_bind (yields_positions (hfields less hroom) (fun _ hf => hf) 0 hblank)
    intro built hbuilt
    exact yields_then fun _ => yields_pure hbuilt
  · exact yields_unexpected _ _

/-! ## Records that are written -/

/-- A field of a record with the value it is written with, and what reading it does. -/
structure Filled (α : Type) where
  field : Field α
  json : Json
  change : α -> α

namespace Filled

def entry (f : Filled α) : String × Json :=
  (f.field.name, f.json)

/-- Whether a field is read from its value. -/
def Reads (room : Nat) (f : Filled α) : Prop :=
  Written (f.field.read room) f.json.compact f.change

/-- A record with some of its fields set. -/
def apply (filled : List (Filled α)) (built : α) : α :=
  filled.foldl (fun built f => f.change built) built

/-- A field that is written if there is a value for it. -/
def optional (field : Field α) (json : β -> Json) (change : β -> α -> α) (o : Option β) :
    List (Filled α) :=
  o.toList.map fun x => ⟨field, json x, change x⟩

theorem optional_sublist (field : Field α) (json : β -> Json) (change : β -> α -> α)
    (o : Option β) : ((optional field json change o).map Filled.field).Sublist [field] := by
  cases o with
  | none =>
      exact List.nil_sublist _
  | some x =>
      exact List.Sublist.refl _

theorem mem_optional {field : Field α} {json : β -> Json} {change : β -> α -> α} {o : Option β}
    {f : Filled α} (h : f ∈ optional field json change o) :
    exists x, o = some x ∧ f = ⟨field, json x, change x⟩ := by
  cases o with
  | none =>
      cases h
  | some x =>
      exact ⟨x, rfl, List.mem_singleton.mp h⟩

end Filled

section

variable {r : Record α} {room : Nat}

theorem entries_end {seen : List String} (habsent : r.absent? seen = none) (bound : Nat)
    (built : α) (rest : List Char) :
    r.entries room (bound + 1) seen built ('\x7d' :: rest) = .ok (built, '\x7d' :: rest) := by
  unfold Record.entries
  rw [bind_of_ok (another_close (by decide) seen.isEmpty rest), if_neg (by decide)]
  simp only [habsent]
  rfl

theorem entries_step {f : Filled α} (hfound : r.field? f.field.name = some f.field)
    (hreads : f.Reads room) {seen : List String} (hseen : f.field.name ∉ seen)
    {text left : List Char} (hleft : Stops left)
    (hmore : another '\x7d' seen.isEmpty text = .ok (true, entryText f.entry ++ left))
    (bound : Nat) (built : α) :
    r.entries room (bound + 1) seen built text =
      r.entries room bound (f.field.name :: seen) (f.change built) left := by
  have hnew : ¬ seen.contains f.field.name = true := by
    rw [List.contains_iff_mem]
    exact hseen
  have htext : entryText f.entry ++ left = '"' ::
      (f.field.name.toList.flatMap escapeChar ++ '"' :: ':' :: (f.json.compact ++ left)) := by
    show (writeString f.field.name ++ ':' :: f.json.compact) ++ left = _
    rw [List.append_assoc, writeString_append, List.cons_append]
  rw [htext] at hmore
  rw [Record.entries, bind_of_ok hmore, if_pos rfl, bind_of_ok (token_cons (by decide) _),
    bind_of_ok (stringRest_written _ _)]
  simp only [hfound]
  rw [if_neg hnew]
  show (token ':' >>= fun _ => f.field.read room >>= fun change =>
    r.entries room bound (f.field.name :: seen) (change built)) (':' :: _) = _
  rw [bind_of_ok (token_cons (by decide) _), bind_of_ok (hreads.reads left hleft)]

theorem entries_listed {filled : List (Filled α)}
    (hfilled : forall f, f ∈ filled -> r.field? f.field.name = some f.field ∧ f.Reads room)
    {seen : List String} (hdistinct : (filled.map (·.field.name) ++ seen).Nodup)
    (hrequired : forall field, field ∈ r.fields -> field.required = true ->
      field.name ∈ filled.map (·.field.name) ++ seen)
    {bound : Nat} (hbound : filled.length < bound) (built : α) (rest : List Char) :
    r.entries room bound seen built
        (listed seen.isEmpty (filled.map fun f => entryText f.entry) ++ '\x7d' :: rest) =
      .ok (Filled.apply filled built, '\x7d' :: rest) := by
  induction filled generalizing seen bound built with
  | nil =>
      cases bound with
      | zero =>
          cases hbound
      | succ bound =>
          have habsent : r.absent? seen = none := by
            apply List.find?_eq_none.mpr
            intro field hfield habsent
            rw [Bool.and_eq_true, Bool.not_eq_true', ← Bool.not_eq_true,
              List.contains_iff_mem] at habsent
            exact habsent.2 (hrequired field hfield habsent.1)
          rw [List.map_nil, listed_nil, List.nil_append]
          exact entries_end habsent bound built rest
  | cons f filled ih =>
      cases bound with
      | zero =>
          cases hbound
      | succ bound =>
          rcases List.forall_mem_cons.mp hfilled with ⟨⟨hfound, hreads⟩, hrest⟩
          -- The names that count as seen now are those of before in another order.
          have hnames : ((filled.map (·.field.name)) ++ f.field.name :: seen).Perm
              ((f :: filled).map (·.field.name) ++ seen) := List.perm_middle
          have hseen : f.field.name ∉ seen := by
            intro hmem
            exact (List.nodup_cons.mp hdistinct).1 (List.mem_append_right _ hmem)
          rw [List.map_cons, entries_step hfound hreads hseen (stops_listed (by decide) _ rest)
            (another_listed (by decide) (opens_entryText f.entry) _ _ rest)]
          apply ih hrest
          · exact hnames.nodup_iff.mpr hdistinct
          · intro field hfield hfieldRequired
            exact hnames.mem_iff.mpr (hrequired field hfield hfieldRequired)
          · exact Nat.lt_of_succ_lt_succ hbound

theorem entries_filled {filled : List (Filled α)}
    (hfilled : forall f, f ∈ filled -> r.field? f.field.name = some f.field ∧ f.Reads room)
    (hdistinct : (filled.map (·.field.name)).Nodup)
    (hrequired : forall field, field ∈ r.fields -> field.required = true ->
      field.name ∈ filled.map (·.field.name))
    {text rest : List Char}
    (htext : text = listed true (filled.map fun f => entryText f.entry) ++ '\x7d' :: rest)
    (built : α) :
    r.entries room (text.length + 1) [] built text =
      .ok (Filled.apply filled built, '\x7d' :: rest) := by
  have hopens : forall text, text ∈ filled.map (fun f => entryText f.entry) -> Opens text := by
    intro text htext
    rcases List.mem_map.mp htext with ⟨f, _, hf⟩
    rw [← hf]
    exact opens_entryText f.entry
  have hbound : filled.length < text.length + 1 := by
    have hlength := length_le_listed hopens true
    rw [List.length_map] at hlength
    rw [htext, List.length_append]
    omega
  rw [← List.append_nil (filled.map (·.field.name))] at hdistinct hrequired
  have hentries := entries_listed hfilled hdistinct hrequired hbound built rest
  rw [htext] at hentries ⊢
  exact hentries

end

theorem field?_of_mem {r : Record α} (hnames : (r.fields.map Field.name).Nodup) {field : Field α}
    (h : field ∈ r.fields) : r.field? field.name = some field := by
  unfold Record.field?
  generalize r.fields = fields at hnames h
  induction fields with
  | nil =>
      cases h
  | cons first rest ih =>
      rw [List.map_cons, List.nodup_cons] at hnames
      rcases List.mem_cons.mp h with h | h
      · rw [h]
        exact List.find?_cons_of_pos (beq_self_eq_true first.name)
      · have hother : ¬ (first.name == field.name) = true := by
          intro heq
          apply hnames.1
          rw [eq_of_beq heq]
          exact List.mem_map_of_mem h
        rw [List.find?_cons_of_neg (p := fun f : Field α => f.name == field.name) hother]
        exact ih hnames.2 h

/-- A record whose fields have names of their own is read back from those that were written, in
their order, if no required one was left out. -/
theorem written_record {r : Record α} {room : Nat} {filled : List (Filled α)}
    (hnames : (r.fields.map Field.name).Nodup)
    (hsub : (filled.map Filled.field).Sublist r.fields)
    (hreads : forall f, f ∈ filled -> f.Reads room)
    (hrequired : forall field, field ∈ r.fields -> field.required = true ->
      field.name ∈ filled.map (·.field.name)) :
    Written (record r (room + 1)) (Json.object (filled.map Filled.entry)).compact
      (Filled.apply filled r.blank) := by
  have hdistinct : (filled.map (·.field.name)).Nodup := by
    have hmap := hnames.sublist (hsub.map Field.name)
    rw [List.map_map] at hmap
    exact hmap
  have hfilled : forall f, f ∈ filled -> r.field? f.field.name = some f.field ∧ f.Reads room := by
    intro f hf
    have hmem : f.field ∈ r.fields := hsub.subset (List.mem_map_of_mem hf)
    exact ⟨field?_of_mem hnames hmem, hreads f hf⟩
  constructor
  · exact opens_cons (by decide) _
  · intro rest _
    have htext : listed true ((filled.map Filled.entry).map entryText) ++ (['\x7d'] ++ rest) =
        listed true (filled.map fun f => entryText f.entry) ++ '\x7d' :: rest := by
      rw [List.map_map]
      rfl
    unfold record
    rw [compact_object, List.cons_append, List.append_assoc,
      bind_of_ok (peekToken_cons (by decide) _), if_pos rfl, nested_succ, bind_get,
      bind_of_ok (entries_filled hfilled hdistinct hrequired htext r.blank),
      bind_of_ok (token_cons (by decide) rest)]
    rfl

/-- A stable document that is written from fields is read as what these fields set. -/
theorem written_fields {r : Record α} {room : Nat} {filled : List (Filled α)} {json : Json}
    (hjson : json = .object (filled.map Filled.entry)) (hstable : json.Stable)
    (hnames : (r.fields.map Field.name).Nodup)
    (hsub : (filled.map Filled.field).Sublist r.fields)
    (hreads : (forall f, f ∈ filled -> f.json.Stable) -> forall f, f ∈ filled -> f.Reads room)
    (hrequired : forall field, field ∈ r.fields -> field.required = true ->
      field.name ∈ filled.map (·.field.name)) :
    Written (record r (room + 1)) json.compact (Filled.apply filled r.blank) := by
  rw [hjson] at hstable ⊢
  apply written_record hnames hsub _ hrequired
  apply hreads
  intro f hf
  exact hstable.entry (List.mem_map_of_mem hf)

end Shape
end Json
end Contracts
