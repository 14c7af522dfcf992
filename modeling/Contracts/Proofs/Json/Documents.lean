import Contracts.Proofs.Binary64.Range
import Contracts.Proofs.Json.Numbers
import Contracts.Proofs.Json.Sorting
import Contracts.Proofs.Json.Texts

/-!
# Documents written and read

A reader with a certain room for nesting gives documents that `Fits` describes: no deeper than the
room, integers of 64 bits, finite doubles, and the entries of every object in the order of their
keys.  Such a document is read back from its text, provided that each double in it is.
-/

namespace Contracts
namespace Json

/-! ## Documents that are read -/

/-- Whether a document is one that a reader with so much room may read. -/
inductive Fits : Nat -> Json -> Prop where
  | null {room : Nat} : Fits room .null
  | bool {room : Nat} (b : Bool) : Fits room (.bool b)
  | int {room : Nat} {n : Int} (hleast : -(Reader.signedLimit : Int) <= n)
      (hgreatest : n < Reader.signedLimit) : Fits room (.int n)
  | float {room : Nat} {x : Binary64} (h : x.isFinite = true) : Fits room (.float x)
  | str {room : Nat} (s : String) : Fits room (.str s)
  | array {room : Nat} {items : List Json} (h : forall item, item ∈ items -> Fits room item) :
      Fits (room + 1) (.array items)
  | object {room : Nat} {entries : List (String × Json)} (hsorted : Sorted entries)
      (h : forall entry, entry ∈ entries -> Fits room entry.2) : Fits (room + 1) (.object entries)

/-! ## The doubles in a document -/

mutual

/-- The doubles in a document, in the order in which they are written. -/
def floats : Json -> List Binary64
  | .float x =>
      [x]
  | .array items =>
      floatsOfItems items
  | .object entries =>
      floatsOfEntries entries
  | .null =>
      []
  | .bool _ =>
      []
  | .int _ =>
      []
  | .str _ =>
      []

def floatsOfItems : List Json -> List Binary64
  | [] =>
      []
  | item :: rest =>
      floats item ++ floatsOfItems rest

def floatsOfEntries : List (String × Json) -> List Binary64
  | [] =>
      []
  | (_, value) :: rest =>
      floats value ++ floatsOfEntries rest

end

theorem floatsOfItems_eq (items : List Json) : floatsOfItems items = items.flatMap floats := by
  induction items with
  | nil =>
      rfl
  | cons item rest ih =>
      rw [floatsOfItems, ih, List.flatMap_cons]

theorem floatsOfEntries_eq (entries : List (String × Json)) :
    floatsOfEntries entries = entries.flatMap fun e => e.2.floats := by
  induction entries with
  | nil =>
      rfl
  | cons e rest ih =>
      obtain ⟨key, value⟩ := e
      rw [floatsOfEntries, ih, List.flatMap_cons]

/-- Whether each double in a document is the one that is read from its text. -/
def Stable (json : Json) : Prop :=
  forall x, x ∈ json.floats -> reread? x = some x

theorem Stable.item {items : List Json} (h : Stable (.array items)) {item : Json}
    (hitem : item ∈ items) : item.Stable := by
  intro x hx
  apply h
  rw [floats, floatsOfItems_eq]
  exact List.mem_flatMap_of_mem hitem hx

theorem Stable.entry {entries : List (String × Json)} (h : Stable (.object entries))
    {e : String × Json} (he : e ∈ entries) : e.2.Stable := by
  intro x hx
  apply h
  rw [floats, floatsOfEntries_eq]
  exact List.mem_flatMap_of_mem he hx

namespace Reader

/-- An entry of an object: a key and a value behind it. -/
def entry (read : Reader Json) : Reader (String × Json) := do
  return (← key, ← read)

theorem integer?_bounds {t : NumberText} {n : Int} (h : t.integer? = some n) :
    -(signedLimit : Int) <= n ∧ n < Decimal.wordLimit := by
  unfold NumberText.integer? at h
  simp only at h
  unfold signedLimit Decimal.wordLimit at *
  split at h
  · cases h
  · split at h
    · split at h
      · cases h
      · rename_i hsmall
        simp only [Bool.or_eq_true, decide_eq_true_eq, not_or] at hsmall
        cases h
        omega
    · split at h
      · cases h
        omega
      · cases h

theorem fits_number (room : Nat) : Yields number fun n => Fits room n.toJson := by
  unfold number
  apply yields_then
  intro t
  split
  · rename_i n hn
    rcases integer?_bounds hn with ⟨hleast, hgreatest⟩
    apply yields_pure
    show Fits room (if n < signedLimit then .int n else .float (.ofInt n))
    split
    · rename_i hgreatest
      exact Fits.int hleast hgreatest
    · apply Fits.float
      apply Binary64.isFinite_ofInt
      unfold signedLimit at *
      omega
  · split
    · rename_i x hx
      exact yields_pure (Fits.float (NumberText.isFinite_float? hx))
    · exact yields_throw _

theorem toJson_ne_null (n : Number) : n.toJson ≠ .null := by
  unfold Number.toJson
  cases n with
  | integer n =>
      by_cases hn : n < signedLimit
      · simp [hn]
      · simp [hn]
  | float x =>
      simp

/-- The first character tells what a value is, and in particular whether it is `null`. -/
theorem exists_valueWith {inner : Option (Reader Json)} {room : Nat}
    (h : forall read, inner = some read -> exists less, room = less + 1 ∧ Yields read (Fits less)) :
    exists behind : Char -> Reader Json, valueWith inner = (peekToken >>= behind) ∧
      forall c, Yields (behind c) fun json => Fits room json ∧ (json = .null <-> c = 'n') := by
  refine ⟨_, rfl, ?_⟩
  intro c
  split
  · rename_i hc
    apply yields_then
    intro _
    apply yields_pure
    exact ⟨Fits.null, iff_of_true rfl hc⟩
  -- From here on another character stands first, and what is read is not `null`.
  rename_i hc
  split
  · apply yields_then
    intro _
    apply yields_pure
    exact ⟨Fits.bool true, iff_of_false nofun hc⟩
  split
  · apply yields_then
    intro _
    apply yields_pure
    exact ⟨Fits.bool false, iff_of_false nofun hc⟩
  split
  · apply yields_bind (fits_number room)
    intro n hn
    apply yields_pure
    exact ⟨hn, iff_of_false (toJson_ne_null n) hc⟩
  split
  · apply yields_then
    intro _
    apply yields_then
    intro s
    apply yields_pure
    exact ⟨Fits.str s, iff_of_false nofun hc⟩
  split
  · cases inner with
    | none =>
        exact yields_throw _
    | some read =>
        rcases h read rfl with ⟨less, hroom, hread⟩
        apply yields_then
        intro _
        apply yields_bind (yields_list hread ']')
        intro items hitems
        apply yields_pure
        rw [hroom]
        exact ⟨Fits.array hitems, iff_of_false nofun hc⟩
  split
  · cases inner with
    | none =>
        exact yields_throw _
    | some read =>
        rcases h read rfl with ⟨less, hroom, hread⟩
        have hentry : Yields (entry read) fun e => Fits less e.2 := by
          apply yields_then
          intro k
          apply yields_bind hread
          intro x hx
          exact yields_pure hx
        apply yields_then
        intro _
        apply yields_bind (yields_list hentry '\x7d')
        intro entries hentries
        apply yields_pure
        rw [hroom]
        constructor
        · apply Fits.object (sorted_sortEntries entries)
          intro e he
          exact hentries e (mem_of_mem_sortEntries he)
        · exact iff_of_false nofun hc
  · exact yields_throw _

theorem fits_of_behind {behind : Char -> Reader Json} {room : Nat}
    (h : forall c, Yields (behind c) fun json => Fits room json ∧ (json = .null <-> c = 'n')) :
    Yields (peekToken >>= behind) (Fits room) := by
  apply yields_then
  intro c
  exact (h c).imp fun json hjson => hjson.1

theorem exists_value (room : Nat) :
    exists behind : Char -> Reader Json, value room = (peekToken >>= behind) ∧
      forall c, Yields (behind c) fun json => Fits room json ∧ (json = .null <-> c = 'n') := by
  induction room with
  | zero =>
      apply exists_valueWith
      intro read hread
      cases hread
  | succ room ih =>
      apply exists_valueWith
      intro read hread
      cases hread
      refine ⟨room, rfl, ?_⟩
      rcases ih with ⟨behind, hvalue, hbehind⟩
      rw [hvalue]
      exact fits_of_behind hbehind

theorem fits_value (room : Nat) : Yields (value room) (Fits room) := by
  rcases exists_value room with ⟨behind, hvalue, hbehind⟩
  rw [hvalue]
  exact fits_of_behind hbehind

/-- Where a value was read, `null` is what begins as `null` does. -/
theorem null_iff_of_value {room : Nat} {text rest : List Char} {json : Json} {c : Char}
    (h : value room text = .ok (json, rest)) (hc : peekToken text = .ok (c, text)) :
    json = .null <-> c = 'n' := by
  rcases exists_value room with ⟨behind, hvalue, hbehind⟩
  rw [hvalue, bind_of_ok hc] at h
  exact ((hbehind c).of_ok text json rest h).2

end Reader

/-! ## Documents that are written -/

/-- An entry of an object as it is written. -/
def entryText (e : String × Json) : List Char :=
  writeString e.1 ++ ':' :: e.2.compact

theorem compactItems_eq (items : List Json) :
    compactItems items = Reader.listed true (items.map compact) := by
  induction items with
  | nil =>
      rfl
  | cons item rest ih =>
      cases rest with
      | nil =>
          rw [compactItems]
          exact (List.append_nil _).symm
      | cons next rest =>
          rw [compactItems, ih]
          rfl

theorem compactEntries_eq (entries : List (String × Json)) :
    compactEntries entries = Reader.listed true (entries.map entryText) := by
  induction entries with
  | nil =>
      rfl
  | cons e rest ih =>
      obtain ⟨key, value⟩ := e
      cases rest with
      | nil =>
          rw [compactEntries]
          exact (List.append_nil _).symm
      | cons next rest =>
          rw [compactEntries, ih]
          rfl

theorem compact_str (s : String) : (str s).compact = writeString s := rfl

theorem compact_array (items : List Json) :
    (array items).compact = '[' :: (Reader.listed true (items.map compact) ++ [']']) := by
  rw [← compactItems_eq]
  rfl

theorem compact_object (entries : List (String × Json)) :
    (object entries).compact =
      '\x7b' :: (Reader.listed true (entries.map entryText) ++ ['\x7d']) := by
  rw [← compactEntries_eq]
  rfl

theorem Spelling.exists_head (p : Spelling) :
    exists c tail, p.text = c :: tail ∧ (c = '-' ∨ c.isDigit = true) := by
  unfold Spelling.text
  cases p.negative with
  | true =>
      exact ⟨'-', _, rfl, Or.inl rfl⟩
  | false =>
      cases hwhole : p.whole with
      | nil =>
          exact absurd hwhole p.areDigits_whole.ne_nil
      | cons c rest =>
          have hc : c ∈ p.whole := by
            rw [hwhole]
            exact List.mem_cons_self
          exact ⟨c, _, rfl, Or.inr (p.areDigits_whole.isDigit c hc)⟩

namespace Reader

section

variable {inner : Option (Reader Json)}

theorem valueWith_null (rest : List Char) :
    valueWith inner ('n' :: 'u' :: 'l' :: 'l' :: rest) = .ok (.null, rest) := rfl

theorem valueWith_bool (b : Bool) (rest : List Char) :
    valueWith inner ((Json.bool b).compact ++ rest) = .ok (.bool b, rest) := by
  cases b with
  | true =>
      rfl
  | false =>
      rfl

theorem opensValue_of_number {c : Char} (h : c = '-' ∨ c.isDigit = true) :
    opensValue c = true := by
  unfold opensValue
  rcases h with h | h
  · rw [h]
    decide
  · simp [h]

theorem valueWith_number {c : Char} (hc : c = '-' ∨ c.isDigit = true) {text rest : List Char}
    {n : Number} (h : number (c :: text) = .ok (n, rest)) :
    valueWith inner (c :: text) = .ok (n.toJson, rest) := by
  have hother : forall d : Char, d ≠ '-' -> d.isDigit = false -> c ≠ d := by
    intro d hminus hdigit heq
    rw [heq] at hc
    rcases hc with hc | hc
    · exact hminus hc
    · rw [hdigit] at hc
      cases hc
  unfold valueWith
  rw [bind_of_ok (peekToken_cons (isSpace_of_opensValue (opensValue_of_number hc)) text),
    if_neg (hother 'n' (by decide) (by decide)), if_neg (hother 't' (by decide) (by decide)),
    if_neg (hother 'f' (by decide) (by decide)), if_pos (by simpa using hc), bind_of_ok h]
  rfl

theorem valueWith_string (s : String) (rest : List Char) :
    valueWith inner (writeString s ++ rest) = .ok (.str s, rest) := by
  rw [writeString_append]
  unfold valueWith
  rw [bind_of_ok (peekToken_cons (by decide) _)]
  show (next >>= fun _ => stringRest >>= fun s => pure (Json.str s)) ('"' :: _) = _
  rw [bind_of_ok (next_cons _ _), bind_of_ok (stringRest_written s rest)]
  rfl

theorem valueWith_array {read : Reader Json} {text rest : List Char} {items : List Json}
    (h : list read ']' text = .ok (items, rest)) :
    valueWith (some read) ('[' :: text) = .ok (.array items, rest) := by
  unfold valueWith
  rw [bind_of_ok (peekToken_cons (by decide) _)]
  show (next >>= fun _ => list read ']' >>= fun items => pure (Json.array items))
    ('[' :: text) = _
  rw [bind_of_ok (next_cons _ _), bind_of_ok h]
  rfl

theorem valueWith_object {read : Reader Json} {text rest : List Char}
    {entries : List (String × Json)} (h : list (entry read) '\x7d' text = .ok (entries, rest)) :
    valueWith (some read) ('\x7b' :: text) = .ok (.object (sortEntries entries), rest) := by
  unfold valueWith
  rw [bind_of_ok (peekToken_cons (by decide) _)]
  show (next >>= fun _ => list (entry read) '\x7d' >>= fun entries =>
    pure (Json.object (sortEntries entries))) ('\x7b' :: text) = _
  rw [bind_of_ok (next_cons _ _), bind_of_ok h]
  rfl

end

theorem opens_entryText (e : String × Json) : Opens (entryText e) := by
  unfold entryText
  rw [writeString_append]
  exact opens_cons (by decide) _

theorem written_entry {read : Reader Json} {e : String × Json}
    (h : Written read e.2.compact e.2) : Written (entry read) (entryText e) e := by
  constructor
  · exact opens_entryText e
  · intro rest hrest
    unfold entry entryText
    rw [List.append_assoc, List.cons_append, bind_of_ok (key_written e.1 _),
      bind_of_ok (h.reads rest hrest)]
    rfl

/-- A number is read as a value where it is read as a number. -/
theorem written_spelled (room : Nat) {p : Spelling} {n : Number}
    (h : forall rest, Stops rest -> number (p.text ++ rest) = .ok (n, rest)) :
    Written (value room) p.text n.toJson := by
  rcases p.exists_head with ⟨c, tail, htext, hc⟩
  constructor
  · exact ⟨c, tail, htext, opensValue_of_number hc⟩
  · intro rest hrest
    have hnumber := h rest hrest
    rw [htext] at hnumber ⊢
    cases room with
    | zero =>
        exact valueWith_number hc hnumber
    | succ room =>
        exact valueWith_number hc hnumber

theorem written_plain (room : Nat) {text : List Char} {json : Json} (hopens : Opens text)
    (h : forall inner rest, valueWith inner (text ++ rest) = .ok (json, rest)) :
    Written (value room) text json := by
  constructor
  · exact hopens
  · intro rest _
    cases room with
    | zero =>
        exact h none rest
    | succ room =>
        exact h (some (value room)) rest

theorem written_array {room : Nat} {items : List Json}
    (h : forall item, item ∈ items -> Written (value room) item.compact item) :
    Written (value (room + 1)) (Json.array items).compact (.array items) := by
  have hitems : List.Forall₂ (Written (value room)) (items.map compact) items := by
    rw [List.forall₂_map_left_iff, List.forall₂_same]
    exact h
  constructor
  · exact opens_cons (by decide) _
  · intro rest _
    rw [compact_array, List.cons_append, List.append_assoc]
    exact valueWith_array (list_listed (by decide) hitems rest)

theorem written_object {room : Nat} {entries : List (String × Json)} (hsorted : Sorted entries)
    (h : forall e, e ∈ entries -> Written (value room) e.2.compact e.2) :
    Written (value (room + 1)) (Json.object entries).compact (.object entries) := by
  have hentries : List.Forall₂ (Written (entry (value room))) (entries.map entryText) entries := by
    rw [List.forall₂_map_left_iff, List.forall₂_same]
    intro e he
    exact written_entry (h e he)
  constructor
  · exact opens_cons (by decide) _
  · intro rest _
    rw [compact_object, List.cons_append, List.append_assoc]
    have hread := valueWith_object (list_listed (by decide) hentries rest)
    rw [sortEntries_of_sorted hsorted] at hread
    exact hread

/-- A document that fits is read back from its text, if every double in it is. -/
theorem written_compact {room : Nat} {json : Json} (h : Fits room json)
    (hstable : json.Stable) :
    Written (value room) json.compact json := by
  induction h with
  | null =>
      exact written_plain _ (opens_cons (by decide) _) fun _ rest => valueWith_null rest
  | bool b =>
      cases b with
      | true =>
          exact written_plain _ (opens_cons (by decide) _) fun _ rest => valueWith_bool true rest
      | false =>
          exact written_plain _ (opens_cons (by decide) _) fun _ rest => valueWith_bool false rest
  | int hleast hgreatest =>
      rename_i room n
      have hjson : (Number.integer n).toJson = .int n := if_pos hgreatest
      have htext : (Json.int n).compact = (Spelling.ofInt n).text := (Spelling.text_ofInt n).symm
      rw [htext, ← hjson]
      apply written_spelled
      intro rest hrest
      rw [Spelling.text_ofInt]
      exact number_intDigits hrest hleast hgreatest
  | float hx =>
      rename_i room x
      have hreread : reread? x = some x := hstable x List.mem_cons_self
      rcases exists_spelling_float hx with ⟨p, hp, _⟩
      have htext : (Json.float x).compact = p.text := hp.symm
      rw [htext]
      apply written_spelled room (n := .float x)
      intro rest hrest
      rw [hp]
      exact number_writeFloat hrest hx hreread
  | str s =>
      exact written_plain _ (opens_cons (by decide) _) fun _ rest => valueWith_string s rest
  | array _ ih =>
      apply written_array
      intro item hitem
      exact ih item hitem (hstable.item hitem)
  | object hsorted _ ih =>
      apply written_object hsorted
      intro e he
      exact ih e he (hstable.entry he)

end Reader

/-- Reading a whole text that was written. -/
theorem read_text {json : Json} (h : Fits nestingLimit json)
    (hstable : json.Stable) :
    read json.text = .ok json :=
  Reader.run_written (Reader.written_compact h hstable)

end Json
end Contracts
