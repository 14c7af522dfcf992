import Contracts.Proofs.Signature.Scanning
import Contracts.Signature.Declaration

/-!
# Reading the parts of a declaration

Each step of reading a declaration is described here for the texts that later modules compose:
where the parameter list stands, how it falls into pieces, what a piece binds, and when the
names of all pieces are valid.
-/

namespace Contracts
namespace Signature

/-!
# Where the list stands

In front of the list stands plain text without an arrow.  The list itself is accepted by a
strict scan, so the round bracket that closes it is the first at its depth.
-/

theorem cut?_append_cons {α : Type} {p : α -> Bool} {front : List α} {x : α}
    (hfront : forall y, y ∈ front -> p y = false) (hx : p x = true) (back : List α) :
    cut? p (front ++ x :: back) = some (front, back) := by
  induction front with
  | nil =>
      simp [cut?, hx]
  | cons y front ih =>
      rcases List.forall_mem_cons.mp hfront with ⟨hy, hfront'⟩
      simp [cut?, hy, ih hfront']

theorem isAt_flat_of_ne {depth other : Nat} (h : other ≠ depth) (c : Char) (text : List Char) :
    forall m, m ∈ flat depth text -> m.isAt c other = false := by
  intro m hm
  rcases List.mem_map.mp hm with ⟨d, _, rfl⟩
  simp [Mark.isAt, h.symm]

theorem isAt_flat_of_not_mem {c : Char} {text : List Char} (h : c ∉ text) (depth other : Nat) :
    forall m, m ∈ flat depth text -> m.isAt c other = false := by
  intro m hm
  rcases List.mem_map.mp hm with ⟨d, hd, rfl⟩
  have hne : d ≠ c := by
    rintro rfl
    exact h hd
  simp [Mark.isAt, hne]

theorem startsClosure_cons {c : Char} (hblank : Text.isBlank c = false) (hm : c ≠ 'm')
    (hbar : c ≠ '|') (rest : List Char) : startsClosure (c :: rest) = false := by
  have hword : dropWord ['m', 'o', 'v', 'e'] (c :: rest) = c :: rest := by
    have hprefix : (['m', 'o', 'v', 'e'].isPrefixOf (c :: rest)) = false := by
      simp [List.isPrefixOf, hm.symm]
    simp [dropWord, hprefix]
  simp [startsClosure, Text.trimStart_cons hblank, hword, hbar]

theorem beforeArrow?_of_not_mem {text : List Char} (h : '=' ∉ text) :
    beforeArrow? text = none := by
  induction text with
  | nil =>
      rfl
  | cons c text ih =>
      have hc : c ≠ '=' := fun e => h (by simp [e])
      have htext : '=' ∉ text := fun hmem => h (List.mem_cons_of_mem c hmem)
      simp [beforeArrow?, hc, ih htext]

/-- What stands before a parameter list in round brackets. -/
structure Lead (lead : List Char) : Prop where
  plain : forall c, c ∈ lead -> isPlain c = true
  noArrow : '=' ∉ lead
  noClosure : forall rest, startsClosure (lead ++ '(' :: rest) = false

theorem extent_of_marks {lead list rest : List Char} {inside after : List Mark}
    (hlead : Lead lead)
    (hscan : scanFrom .lenient .code (some '(') ['('] (list ++ ')' :: rest) =
      some (inside ++ ⟨')', some 0⟩ :: after))
    (hinside : forall m, m ∈ inside -> m.isAt ')' 0 = false)
    (hchars : chars inside = list) :
    extent (lead ++ '(' :: (list ++ ')' :: rest)) = .ok (.list list) := by
  have hopen : forall previous,
      scanFrom .lenient .code previous [] ('(' :: (list ++ ')' :: rest)) =
        some (⟨'(', some 1⟩ :: (inside ++ ⟨')', some 0⟩ :: after)) := by
    intro previous
    have hquote : opensQuote '(' (list ++ ')' :: rest) = false := by simp [opensQuote]
    rw [scanFrom_cons_code hquote (bracket_opening (Or.inl rfl) .lenient previous []), hscan]
    rfl
  have hmarks : scan .lenient (lead ++ '(' :: (list ++ ')' :: rest)) =
      some (flat 0 lead ++ ⟨'(', some 1⟩ :: (inside ++ ⟨')', some 0⟩ :: after)) := by
    unfold scan
    rw [scanFrom_plain_append hlead.plain, hopen]
    rfl
  have hclosure : forall marks,
      closureList? (lead ++ '(' :: (list ++ ')' :: rest)) marks = none := by
    intro marks
    simp [closureList?, hlead.noClosure]
  have hfront : forall m, m ∈ flat 0 lead -> m.isAt '(' 1 = false :=
    isAt_flat_of_ne (by decide) '(' lead
  have hround := cut?_append_cons (x := ⟨'(', some 1⟩) hfront rfl
    (inside ++ ⟨')', some 0⟩ :: after)
  have hclose := cut?_append_cons (x := ⟨')', some 0⟩) hinside rfl after
  simp [extent, hmarks, hclosure, hround, hclose, beforeArrow?_of_not_mem hlead.noArrow, hchars]

theorem extent_of_strict {lead list rest : List Char} {marks after : List Mark}
    (hlead : Lead lead) (hlist : scan .strict list = some marks)
    (hneutral : Neutral (')' :: rest))
    (hrest : scanFrom .lenient .code (some ')') [] rest = some after) :
    extent (lead ++ '(' :: (list ++ ')' :: rest)) = .ok (.list list) := by
  have hprevious : Detached (some '(') := by
    constructor <;> decide
  have hbase : ['('].head? ≠ some '<' := by decide
  have hclose : scanFrom .lenient .code (lastOf (some '(') list) ['('] (')' :: rest) =
      some (⟨')', some 0⟩ :: after) := by
    have hquote : opensQuote ')' rest = false := by simp [opensQuote]
    have hopening : opening? ')' = some '(' := rfl
    have hbracket := bracket_of_opening .lenient (lastOf (some '(') list) hopening []
    rw [scanFrom_cons_code hquote hbracket, hrest]
    rfl
  have hscan := scan_strict_append hlist hprevious hbase hneutral .lenient
  rw [hclose] at hscan
  apply extent_of_marks hlead hscan
  · intro m hm
    rcases List.mem_map.mp hm with ⟨n, _, rfl⟩
    exact isAt_raise_of_lt (by decide) ')' n
  · rw [chars_raise, chars_scan hlist]

/-!
# Pieces of a list

Texts that are accepted on their own and hold no comma outside brackets are the pieces of the
list that joins them by commas.
-/

/-- A text that can stand between two commas of a list: its brackets match, and every comma is
inside some. -/
def Enclosed (text : List Char) : Prop :=
  exists marks, scan .strict text = some marks ∧ forall m, m ∈ marks -> m.isAt ',' 0 = false

theorem enclosed_append {front text : List Char}
    (hfront : forall c, c ∈ front -> isPlain c = true ∧ c ≠ ',')
    (hdetached : Detached (lastOf none front)) (htext : Enclosed text) :
    Enclosed (front ++ text) := by
  rcases htext with ⟨marks, hmarks, hcomma⟩
  have hplain : forall c, c ∈ front -> isPlain c = true := fun c hc => (hfront c hc).1
  have hnotMem : ',' ∉ front := fun hmem => (hfront ',' hmem).2 rfl
  have hscan : scanFrom .strict .code none [] text = some marks := hmarks
  refine ⟨flat 0 front ++ marks, ?_, ?_⟩
  · rw [scan, scanFrom_plain_append hplain, scanFrom_of_detached hdetached, hscan]
    rfl
  · intro m hm
    rcases List.mem_append.mp hm with hm | hm
    · exact isAt_flat_of_not_mem hnotMem 0 0 m hm
    · exact hcomma m hm

theorem enclosed_append_blanks {text blanks : List Char} (htext : Enclosed text)
    (hblanks : forall c, c ∈ blanks -> Text.isBlank c = true) : Enclosed (text ++ blanks) := by
  rcases htext with ⟨marks, hmarks, hcomma⟩
  have hplain : forall c, c ∈ blanks -> isPlain c = true :=
    fun c hc => isPlain_of_isBlank (hblanks c hc)
  have hnotMem : ',' ∉ blanks := fun hmem => Text.ne_of_test (hblanks ',' hmem) rfl rfl
  have hbase : ([] : List Char).head? ≠ some '<' := by simp
  have hpass := scan_strict_append hmarks detached_none hbase (neutral_blanks hblanks) .strict
  have hend := scanFrom_plain_append hplain .strict (lastOf none text) [] []
  rw [List.append_nil] at hend
  refine ⟨marks ++ flat 0 blanks, ?_, ?_⟩
  · rw [scan, hpass, hend]
    simp [scanFrom, settle, map_raise_zero]
  · intro m hm
    rcases List.mem_append.mp hm with hm | hm
    · exact hcomma m hm
    · exact isAt_flat_of_not_mem hnotMem 0 0 m hm

theorem enclosed_padded {before text after : List Char} (htext : Enclosed text)
    (hbefore : forall c, c ∈ before -> Text.isBlank c = true)
    (hafter : forall c, c ∈ after -> Text.isBlank c = true) :
    Enclosed (before ++ (text ++ after)) := by
  apply enclosed_append
  · intro c hc
    exact ⟨isPlain_of_isBlank (hbefore c hc), Text.ne_of_test (hbefore c hc) rfl⟩
  · exact detached_lastOf_blanks hbefore
  · exact enclosed_append_blanks htext hafter

theorem scan_join {texts : List (List Char)} (hne : texts ≠ [])
    (henclosed : forall t, t ∈ texts -> Enclosed t)
    (hquote : forall t, t ∈ texts -> t.head? ≠ some '\'') :
    forall previous, Detached previous ->
      exists marks,
        scanFrom .strict .code previous [] ([','].intercalate texts) = some marks ∧
        (Text.splitBy (Mark.isAt ',' 0) marks).map chars = texts := by
  induction texts with
  | nil =>
      exact absurd rfl hne
  | cons t texts ih =>
      intro previous hprevious
      rcases List.forall_mem_cons.mp henclosed with ⟨⟨marks, hmarks, hcomma⟩, henclosed'⟩
      rcases List.forall_mem_cons.mp hquote with ⟨_, hquote'⟩
      have hchars : chars marks = t := chars_scan hmarks
      cases texts with
      | nil =>
          refine ⟨marks, ?_, ?_⟩
          · rw [List.intercalate_singleton, scanFrom_of_detached hprevious]
            exact hmarks
          · rw [Text.splitBy_of_forall hcomma]
            simp [hchars]
      | cons u texts =>
          have hdetached : Detached (some ',') := by
            constructor <;> decide
          rcases ih (by simp) henclosed' hquote' (some ',') hdetached with ⟨tail, htail, hsplit⟩
          have hhead : ([','].intercalate (u :: texts)).head? ≠ some '\'' := by
            have hu := hquote' u (by simp)
            cases u with
            | nil =>
                cases texts <;> simp
            | cons d u =>
                simpa using hu
          have hneutral : Neutral (',' :: [','].intercalate (u :: texts)) :=
            neutral_cons (by decide) (by decide) hhead
          refine ⟨marks ++ ⟨',', some 0⟩ :: tail, ?_, ?_⟩
          · have hbase : ([] : List Char).head? ≠ some '<' := by simp
            have hpass := scan_strict_append hmarks hprevious hbase hneutral .strict
            rw [scanFrom_cons_plain (by decide), htail] at hpass
            rw [List.intercalate_cons_cons, List.append_assoc]
            simpa [map_raise_zero] using hpass
          · rw [Text.splitBy_append_cons hcomma rfl, List.map_cons, hsplit, hchars]

theorem pieces_join {texts : List (List Char)} (hne : texts ≠ [])
    (henclosed : forall t, t ∈ texts -> Enclosed t)
    (hquote : forall t, t ∈ texts -> t.head? ≠ some '\'') :
    pieces ([','].intercalate texts) = .ok texts := by
  rcases scan_join hne henclosed hquote none detached_none with ⟨marks, hmarks, hsplit⟩
  have hscan : scan .strict ([','].intercalate texts) = some marks := hmarks
  simp [pieces, hscan, hsplit]

/-!
# What a piece binds

The head of a parameter is plain text, and ends where a type or a default begins.
-/

/-- A character of a parameter outside its type and its default. -/
def Ordinary (c : Char) : Prop :=
  isPlain c = true ∧ c ≠ ':' ∧ c ≠ '=' ∧ c ≠ ','

theorem ordinary_of_continuesIdentifier {c : Char} (h : Text.continuesIdentifier c = true) :
    Ordinary c :=
  ⟨isPlain_of_continuesIdentifier h, Text.ne_of_test h rfl, Text.ne_of_test h rfl,
    Text.ne_of_test h rfl⟩

theorem ordinary_of_all {text : List Char}
    (h : text.all (fun c => isPlain c && c != ':' && c != '=' && c != ',') = true) :
    forall c, c ∈ text -> Ordinary c := by
  intro c hc
  have hboth := List.all_eq_true.mp h c hc
  simpa [Ordinary, and_assoc] using hboth

theorem ordinary_of_isBlank {c : Char} (h : Text.isBlank c = true) : Ordinary c :=
  ⟨isPlain_of_isBlank h, Text.ne_of_test h rfl, Text.ne_of_test h rfl, Text.ne_of_test h rfl⟩

theorem enclosed_of_ordinary {text : List Char} (h : forall c, c ∈ text -> Ordinary c) :
    Enclosed text := by
  have hnotMem : ',' ∉ text := fun hmem => (h ',' hmem).2.2.2 rfl
  exact ⟨flat 0 text, scan_of_plain (fun c hc => (h c hc).1) .strict,
    isAt_flat_of_not_mem hnotMem 0 0⟩

theorem takeWhile_flat_of_ordinary {text : List Char} (h : forall c, c ∈ text -> Ordinary c)
    (rest : List Mark) :
    (flat 0 text ++ rest).takeWhile (fun m => !(m.isAt ':' 0 || m.isAt '=' 0)) =
      flat 0 text ++ rest.takeWhile (fun m => !(m.isAt ':' 0 || m.isAt '=' 0)) := by
  apply List.takeWhile_append_of_pos
  intro m hm
  rcases List.mem_map.mp hm with ⟨c, hc, rfl⟩
  rcases h c hc with ⟨_, hcolon, hequals, _⟩
  simp [Mark.isAt, hcolon, hequals]

theorem head_of_stop {front back : List Char} {stop : Char}
    (hfront : forall c, c ∈ front -> Ordinary c) (hstop : stop = ':' ∨ stop = '=')
    (haccepted : exists marks, scan .strict (front ++ stop :: back) = some marks) :
    head (front ++ stop :: back) = .ok (Text.trim front) := by
  rcases haccepted with ⟨marks, hmarks⟩
  have hplain : forall c, c ∈ front -> isPlain c = true := fun c hc => (hfront c hc).1
  have hstopPlain : isPlain stop = true := by
    rcases hstop with rfl | rfl <;> decide
  have hpass : scanFrom .strict .code none [] (front ++ stop :: back) = some marks := hmarks
  rw [scanFrom_plain_append hplain, scanFrom_cons_plain hstopPlain, Option.map_map] at hpass
  rcases Option.map_eq_some_iff.mp hpass with ⟨tail, _, rfl⟩
  have hdrop : (⟨stop, some 0⟩ :: tail).takeWhile
      (fun m => !(m.isAt ':' 0 || m.isAt '=' 0)) = [] := by
    rcases hstop with rfl | rfl <;> rfl
  have htake : (flat 0 front ++ ⟨stop, some 0⟩ :: tail).takeWhile
      (fun m => !(m.isAt ':' 0 || m.isAt '=' 0)) = flat 0 front := by
    rw [takeWhile_flat_of_ordinary hfront, hdrop, List.append_nil]
  have hscan : scan .strict (front ++ stop :: back) =
      some (flat 0 front ++ ⟨stop, some 0⟩ :: tail) := hmarks
  simp only [head, hscan, htake, chars_flat]

theorem head_of_ordinary {piece : List Char} (h : forall c, c ∈ piece -> Ordinary c) :
    head piece = .ok (Text.trim piece) := by
  have hscan := scan_of_plain (fun c hc => (h c hc).1) .strict
  have htake := takeWhile_flat_of_ordinary h []
  rw [List.append_nil, List.takeWhile_nil, List.append_nil] at htake
  simp only [head, hscan, htake, chars_flat]

theorem parameterName_of_receiver {piece front : List Char} (hhead : head piece = .ok front)
    (h : isReceiver front = true) (position : Nat) : parameterName piece position = .ok none := by
  simp [parameterName, hhead, h, bind, Except.bind, pure, Except.pure]

theorem parameterName_of_bound {piece front name : List Char} (hhead : head piece = .ok front)
    (hreceiver : isReceiver front = false) (hbound : bound front = name)
    (hname : Text.isIdentifier name = true) (position : Nat) :
    parameterName piece position = .ok (some name) := by
  simp [parameterName, hhead, hreceiver, hbound, hname, bind, Except.bind, pure, Except.pure]

/-- What a piece of a list binds wherever it stands: one name, or none when it is a receiver. -/
def Binds (piece : List Char) (name? : Option (List Char)) : Prop :=
  Text.trim piece ≠ [] ∧
    forall position, parameterName (Text.trim piece) position = .ok name?

theorem namesFrom_map {α : Type} {text : α -> List Char} {name? : α -> Option (List Char)}
    {items : List α} (h : forall i, i ∈ items -> Binds (text i) (name? i)) :
    forall position, namesFrom position (items.map text) = .ok (items.filterMap name?) := by
  induction items with
  | nil =>
      intro position
      rfl
  | cons i items ih =>
      intro position
      rcases List.forall_mem_cons.mp h with ⟨⟨hne, hbinds⟩, hitems⟩
      have hnonempty : (Text.trim (text i)).isEmpty = false := by
        simpa using hne
      have htail := ih hitems (position + 1)
      cases hname : name? i with
      | none =>
          simp [namesFrom, hnonempty, hbinds position, htail, hname, bind, Except.bind, pure,
            Except.pure]
      | some name =>
          simp [namesFrom, hnonempty, hbinds position, htail, hname, bind, Except.bind, pure,
            Except.pure]

/-!
# Distinct names

A list of identifiers is valid when no name stands in it twice, and otherwise the error names
the first that does.
-/

theorem validateFrom_append {seen front back : List String}
    (hidentifier : forall n, n ∈ front -> Text.isIdentifier n.toList = true)
    (hnew : forall n, n ∈ front -> n ∉ seen) (hnodup : front.Nodup) :
    validateFrom seen (front ++ back) = validateFrom (front.reverse ++ seen) back := by
  induction front generalizing seen with
  | nil =>
      rfl
  | cons n front ih =>
      rcases List.forall_mem_cons.mp hidentifier with ⟨hn, hidentifier'⟩
      rcases List.forall_mem_cons.mp hnew with ⟨hnseen, hnew'⟩
      rcases List.nodup_cons.mp hnodup with ⟨hnfront, hnodup'⟩
      have hnew'' : forall m, m ∈ front -> m ∉ n :: seen := by
        intro m hm hmem
        rcases List.mem_cons.mp hmem with rfl | hseen
        · exact hnfront hm
        · exact hnew' m hm hseen
      have hstep := ih hidentifier' hnew'' hnodup'
      simp [validateFrom, hn, hnseen, hstep]

theorem validate_of_nodup {names : List String}
    (hidentifier : forall n, n ∈ names -> Text.isIdentifier n.toList = true)
    (hnodup : names.Nodup) : validate names = .ok names := by
  have hnew : forall n, n ∈ names -> n ∉ ([] : List String) := by simp
  have happend : validateFrom [] (names ++ []) = validateFrom (names.reverse ++ []) [] :=
    validateFrom_append hidentifier hnew hnodup
  rw [List.append_nil] at happend
  simp [validate, happend, validateFrom, bind, Except.bind, pure, Except.pure]

theorem validate_of_repeat {front back : List String} {name : String}
    (hidentifier : forall n, n ∈ front -> Text.isIdentifier n.toList = true)
    (hnodup : front.Nodup) (hname : name ∈ front) :
    validate (front ++ name :: back) = .error (.duplicateName name) := by
  have hnew : forall n, n ∈ front -> n ∉ ([] : List String) := by simp
  have happend : validateFrom [] (front ++ name :: back) =
      validateFrom (front.reverse ++ []) (name :: back) :=
    validateFrom_append hidentifier hnew hnodup
  simp [validate, happend, validateFrom, hidentifier name hname, hname, bind, Except.bind]

theorem nodup_or_repeat {α : Type} [DecidableEq α] (list : List α) :
    list.Nodup ∨ exists front x back, list = front ++ x :: back ∧ front.Nodup ∧ x ∈ front := by
  induction list using List.reverseRecOn with
  | nil =>
      exact Or.inl List.nodup_nil
  | append_singleton list x ih =>
      rcases ih with hnodup | ⟨front, y, back, rfl, hnodup, hy⟩
      · by_cases hx : x ∈ list
        · exact Or.inr ⟨list, x, [], rfl, hnodup, hx⟩
        · have hconcat : (list ++ [x]).Nodup := by
            rw [List.nodup_append]
            refine ⟨hnodup, by simp, ?_⟩
            rintro y hy z hz rfl
            rw [List.mem_singleton] at hz
            exact hx (hz ▸ hy)
          exact Or.inl hconcat
      · exact Or.inr ⟨front, y, back ++ [x], by simp, hnodup, hy⟩

/-!
# From the list to the names
-/

theorem exists_of_bind_eq_ok {ε α β : Type} {x : Except ε α} {f : α -> Except ε β} {b : β}
    (h : x.bind f = .ok b) : exists a, x = .ok a ∧ f a = .ok b := by
  cases x with
  | error e =>
      cases h
  | ok a =>
      exact ⟨a, rfl, h⟩

theorem parameterNames_of_pieces {text : String} {list : List Char} {texts names : List (List Char)}
    (hextent : extent text.toList = .ok (.list list)) (hpieces : pieces list = .ok texts)
    (hnames : namesFrom 0 texts = .ok names) :
    parameterNames text = validate (names.map String.ofList) := by
  simp [parameterNames, hextent, hpieces, hnames, bind, Except.bind]

theorem parameterNames_of_unbalanced {text : String} {list : List Char}
    (hextent : extent text.toList = .ok (.list list)) (hscan : scan .strict list = none) :
    parameterNames text = .error (.unbalanced (String.ofList list)) := by
  simp [parameterNames, hextent, pieces, hscan, bind, Except.bind]

/-- A declaration whose list joins items, each of which is accepted on its own. -/
theorem parameterNames_of_items {α : Type} {lead : List Char} {items : List α}
    {text : α -> List Char} {name? : α -> Option (List Char)} (hlead : Lead lead)
    (hne : items ≠ []) (henclosed : forall i, i ∈ items -> Enclosed (text i))
    (hquote : forall i, i ∈ items -> (text i).head? ≠ some '\'')
    (hbinds : forall i, i ∈ items -> Binds (text i) (name? i)) :
    parameterNames (String.ofList
        (lead ++ '(' :: ([','].intercalate (items.map text) ++ [')']))) =
      validate ((items.filterMap name?).map String.ofList) := by
  have hne' : items.map text ≠ [] := by simpa using hne
  have henclosed' : forall t, t ∈ items.map text -> Enclosed t := by
    intro t ht
    rcases List.mem_map.mp ht with ⟨i, hi, rfl⟩
    exact henclosed i hi
  have hquote' : forall t, t ∈ items.map text -> t.head? ≠ some '\'' := by
    intro t ht
    rcases List.mem_map.mp ht with ⟨i, hi, rfl⟩
    exact hquote i hi
  rcases scan_join hne' henclosed' hquote' none detached_none with ⟨marks, hmarks, _⟩
  have hneutral : Neutral [')'] := neutral_cons (by decide) (by decide) (by simp)
  have hrest : scanFrom .lenient .code (some ')') [] [] = some [] := rfl
  have hextent := extent_of_strict hlead hmarks hneutral hrest
  apply parameterNames_of_pieces
  · rw [String.toList_ofList]
    exact hextent
  · exact pieces_join hne' henclosed' hquote'
  · exact namesFrom_map hbinds 0

end Signature
end Contracts
