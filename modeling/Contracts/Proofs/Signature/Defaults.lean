import Contracts.Proofs.Signature.Angles
import Contracts.Proofs.Signature.Heading
import Mathlib.Data.List.Nodup

/-!
# Comparisons in defaults

A `<` after a name opens an angle also where it was meant as a comparison.  An angle that is
never closed is an error.  But a `>` in a later default closes it, and then the commas between
them separate nothing: the parameters behind them are read as part of the first default, without
an error.  Here this is the only way for a parameter to get lost.
-/

namespace Contracts
namespace Signature

/-!
# Defaults
-/

/-- A character of a name, an operator or a space. -/
def isOperand (c : Char) : Bool :=
  Text.continuesIdentifier c || [' ', '+', '-', '*', '<', '>'].contains c

/-- A parameter with a default of names and operators. -/
structure Default where
  name : List Char
  value : List Char
  isIdentifier_name : Text.isIdentifier name = true := by decide
  name_ne_self : name ≠ selfName := by decide
  isOperand_value : value.all isOperand = true := by decide

namespace Default

def text (d : Default) : List Char :=
  d.name ++ ' ' :: '=' :: ' ' :: d.value

def binding (d : Default) : Binding where
  modifier := .none
  name := d.name
  optional := false
  isIdentifier_name := d.isIdentifier_name
  name_ne_self := d.name_ne_self

theorem text_binding (d : Default) : d.binding.text = d.name := by
  simp [binding, Binding.text, Binding.word, Modifier.text]

theorem angled_of_isOperand {c : Char} (h : isOperand c = true) : Angled c := by
  rw [isOperand, Bool.or_eq_true] at h
  rcases h with h | h
  · exact Or.inl (isPlain_of_continuesIdentifier h)
  · have hoperator : c = ' ' ∨ c = '+' ∨ c = '-' ∨ c = '*' ∨ c = '<' ∨ c = '>' := by
      simpa using h
    rcases hoperator with rfl | rfl | rfl | rfl | hangle
    · exact Or.inl rfl
    · exact Or.inl rfl
    · exact Or.inl rfl
    · exact Or.inl rfl
    · exact Or.inr hangle

theorem angled_value (d : Default) : forall c, c ∈ d.value -> Angled c :=
  fun c hc => angled_of_isOperand (List.all_eq_true.mp d.isOperand_value c hc)

theorem comma_not_mem_value (d : Default) : ',' ∉ d.value :=
  fun hmem => Text.ne_of_test (List.all_eq_true.mp d.isOperand_value ',' hmem) rfl rfl

theorem ordinary_name (d : Default) : forall c, c ∈ d.name -> Ordinary c := by
  intro c hc
  rw [← text_binding] at hc
  exact d.binding.ordinary_text c hc

theorem comma_not_mem_text (d : Default) : ',' ∉ d.text := by
  have hname : ',' ∉ d.name := fun hmem => (d.ordinary_name ',' hmem).2.2.2 rfl
  simp [text, hname, d.comma_not_mem_value]

/-- What stands before the value of a default, after the default before it. -/
def front (d : Default) : List Char :=
  ',' :: ' ' :: (d.name ++ [' ', '='])

theorem text_eq_front (d : Default) :
    ',' :: ' ' :: d.text = d.front ++ ' ' :: d.value := by
  simp [text, front]

theorem plain_name_sign (d : Default) : forall c, c ∈ d.name ++ [' ', '='] -> isPlain c = true := by
  intro c hc
  rcases List.mem_append.mp hc with hc | hc
  · exact (d.ordinary_name c hc).1
  · have hall : [' ', '='].all isPlain = true := rfl
    exact List.all_eq_true.mp hall c hc

theorem plain_front (d : Default) : forall c, c ∈ d.front -> isPlain c = true := by
  intro c hc
  rcases List.mem_cons.mp hc with rfl | hc
  · decide
  · rcases List.mem_cons.mp hc with rfl | hc
    · decide
    · exact d.plain_name_sign c hc

theorem angled_text (d : Default) : forall c, c ∈ ',' :: ' ' :: d.text -> Angled c := by
  intro c hc
  rw [text_eq_front] at hc
  rcases List.mem_append.mp hc with hc | hc
  · exact Or.inl (d.plain_front c hc)
  · rcases List.mem_cons.mp hc with rfl | hc
    · exact Or.inl (by decide)
    · exact d.angled_value c hc

end Default

/-- The angles that are open after defaults, if so many are before them. -/
def anglesAfterDefaults (n : Nat) (ds : List Default) : Nat :=
  ds.foldl (fun n d => anglesAfter none n d.value) n

/-- The list of defaults as it is written. -/
def written (ds : List Default) : List Char :=
  [',', ' '].intercalate (ds.map Default.text)

/-- The defaults that follow others in a list. -/
def following (ds : List Default) : List Char :=
  ds.flatMap fun d => ',' :: ' ' :: d.text

/-- The declaration of a function with a list of defaults. -/
def declaration (ds : List Default) : String :=
  String.ofList (['f', 'u', 'n', 'c', 't', 'i', 'o', 'n', ' ', 'f'] ++
    '(' :: (written ds ++ [')']))

theorem written_cons (d : Default) (ds : List Default) :
    written (d :: ds) = d.text ++ following ds := by
  induction ds generalizing d with
  | nil =>
      simp [written, following]
  | cons e ds ih =>
      have htail := ih e
      simp only [written, following, List.map_cons] at htail ⊢
      rw [List.intercalate_cons_cons, htail]
      simp

theorem anglesAfter_space {front : List Char} (h : forall c, c ∈ front -> isPlain c = true)
    (previous : Option Char) (n : Nat) (value : List Char) :
    anglesAfter previous n (front ++ ' ' :: value) = anglesAfter none n value := by
  rw [anglesAfter_append, anglesAfter_of_plain h, anglesAfter, angleStep_of_isPlain (by decide)]
  exact anglesAfter_of_detached detached_blank n value

theorem anglesAfter_following (previous : Option Char) (n : Nat) (ds : List Default) :
    anglesAfter previous n (following ds) = anglesAfterDefaults n ds := by
  induction ds generalizing previous n with
  | nil =>
      rfl
  | cons d ds ih =>
      have hcons : following (d :: ds) = (',' :: ' ' :: d.text) ++ following ds := by
        simp [following]
      rw [hcons, d.text_eq_front, anglesAfter_append, ih, anglesAfter_space d.plain_front]
      rfl

theorem anglesAfter_written (d : Default) (ds : List Default) :
    anglesAfter none 0 (written (d :: ds)) = anglesAfterDefaults 0 (d :: ds) := by
  have htext : d.text = (d.name ++ [' ', '=']) ++ ' ' :: d.value := by simp [Default.text]
  rw [written_cons, anglesAfter_append, anglesAfter_following, htext,
    anglesAfter_space d.plain_name_sign]
  rfl

theorem angled_written (d : Default) (ds : List Default) :
    forall c, c ∈ written (d :: ds) -> Angled c := by
  intro c hc
  rw [written_cons] at hc
  rcases List.mem_append.mp hc with hc | hc
  · exact d.angled_text c (by simp [hc])
  · rcases List.mem_flatMap.mp hc with ⟨e, _, he⟩
    exact e.angled_text c he

theorem lead_function : Lead ['f', 'u', 'n', 'c', 't', 'i', 'o', 'n', ' ', 'f'] := by
  constructor
  · exact List.all_eq_true.mp rfl
  · decide
  · intro rest
    exact startsClosure_cons (by decide) (by decide) (by decide) _

/-!
# Groups

The defaults between two commas that separate are read as one.  A group is such a run: it is
named after its first default, and grows while some angle is open.
-/

structure Group where
  before : List Char
  first : Default
  value : List Char

def Group.text (g : Group) : List Char :=
  g.before ++ (g.first.name ++ ' ' :: '=' :: ' ' :: g.value)

/-- The groups of the defaults after a group that leaves so many angles open. -/
def groups : Group -> Nat -> List Default -> List Group
  | g, _, [] =>
      [g]
  | g, 0, d :: ds =>
      g :: groups ⟨[' '], d, d.value⟩ (anglesAfter none 0 d.value) ds
  | g, n + 1, d :: ds =>
      groups { g with value := g.value ++ ',' :: ' ' :: d.text } (anglesAfter none (n + 1) d.value)
        ds

/-- The names of the defaults that stand where no angle is open. -/
def separated : Nat -> List Default -> List (List Char)
  | _, [] =>
      []
  | n, d :: ds =>
      if n = 0 then d.name :: separated (anglesAfter none n d.value) ds
      else separated (anglesAfter none n d.value) ds

theorem groups_ne_nil (g : Group) (n : Nat) (ds : List Default) : groups g n ds ≠ [] := by
  induction ds generalizing g n with
  | nil =>
      simp [groups]
  | cons d ds ih =>
      cases n with
      | zero =>
          simp [groups]
      | succ n =>
          exact ih _ _

theorem join_groups (g : Group) (n : Nat) (ds : List Default) :
    [','].intercalate ((groups g n ds).map Group.text) = g.text ++ following ds := by
  induction ds generalizing g n with
  | nil =>
      simp [groups, following]
  | cons d ds ih =>
      cases n with
      | zero =>
          have hne : (groups ⟨[' '], d, d.value⟩ (anglesAfter none 0 d.value) ds).map
              Group.text ≠ [] := by
            simpa using groups_ne_nil _ _ ds
          rw [groups, List.map_cons, List.intercalate_cons_of_ne_nil hne, ih]
          simp [Group.text, Default.text, following]
      | succ n =>
          rw [groups, ih]
          simp [Group.text, following]

theorem names_groups (g : Group) (n : Nat) (ds : List Default) :
    (groups g n ds).map (fun h => h.first.name) = g.first.name :: separated n ds := by
  induction ds generalizing g n with
  | nil =>
      rfl
  | cons d ds ih =>
      cases n with
      | zero =>
          rw [groups, List.map_cons, ih]
          rfl
      | succ n =>
          rw [groups, ih]
          rfl

/-- A group that leaves so many angles open, and whose commas all stand inside angles. -/
structure Pending (g : Group) (n : Nat) : Prop where
  isBlank_before : forall c, c ∈ g.before -> Text.isBlank c = true
  angled : forall c, c ∈ g.value -> Angled c
  depth : anglesAfter none 0 g.value = n
  comma : forall m, m ∈ angleMarks 0 none 0 g.value -> m.isAt ',' 0 = false

theorem pending_single {before : List Char}
    (h : forall c, c ∈ before -> Text.isBlank c = true) (d : Default) :
    Pending ⟨before, d, d.value⟩ (anglesAfter none 0 d.value) where
  isBlank_before := h
  angled := d.angled_value
  depth := rfl
  comma := isAt_angleMarks_of_not_mem d.comma_not_mem_value 0 0 none 0

theorem pending_extend {g : Group} {n : Nat} (h : Pending g (n + 1)) (d : Default) :
    Pending { g with value := g.value ++ ',' :: ' ' :: d.text }
      (anglesAfter none (n + 1) d.value) where
  isBlank_before := h.isBlank_before
  angled := by
    intro c hc
    rcases List.mem_append.mp hc with hc | hc
    · exact h.angled c hc
    · exact d.angled_text c hc
  depth := by
    rw [anglesAfter_append, h.depth, d.text_eq_front, anglesAfter_space d.plain_front]
  comma := by
    intro m hm
    rw [angleMarks_append, h.depth] at hm
    rcases List.mem_append.mp hm with hm | hm
    · exact h.comma m hm
    · rw [angleMarks, angleStep_of_isPlain (by decide)] at hm
      rcases List.mem_cons.mp hm with rfl | hm
      · simp [Mark.isAt]
      · have hcomma : ',' ∉ ' ' :: d.text := by
          simpa using d.comma_not_mem_text
        exact isAt_angleMarks_of_not_mem hcomma 0 0 _ _ m hm

theorem pending_groups {g : Group} {n : Nat} (h : Pending g n) {ds : List Default}
    (hclosed : anglesAfterDefaults n ds = 0) :
    forall k, k ∈ groups g n ds -> Pending k 0 := by
  induction ds generalizing g n with
  | nil =>
      intro k hk
      rw [List.mem_singleton.mp hk]
      have hn : n = 0 := hclosed
      rwa [hn] at h
  | cons d ds ih =>
      intro k hk
      cases n with
      | zero =>
          rcases List.mem_cons.mp hk with rfl | hk
          · exact h
          · exact ih (pending_single (List.forall_mem_singleton.mpr rfl) d) hclosed k hk
      | succ n =>
          exact ih (pending_extend h d) hclosed k hk

/-- A group without open angles is read like any parameter with a default. -/
theorem exists_padded {g : Group} (h : Pending g 0) :
    exists p : Padded Item, p.text = g.text ∧ p.item.name? = some g.first.name := by
  have henclosed : Enclosed g.value := by
    refine ⟨angleMarks 0 none 0 g.value, ?_, h.comma⟩
    rw [scan_angled h.angled, h.depth, if_pos rfl]
  refine ⟨⟨g.before, .parameter ⟨g.first.binding, .defaulted g.value henclosed⟩, [],
    h.isBlank_before, by simp⟩, ?_, rfl⟩
  simp [Padded.text, Item.text, Parameter.text, Attachment.text, Default.text_binding, Group.text]

/-!
# The names that are read

When every angle is closed at the end, exactly the parameters outside angles are read.
-/

theorem parameterNames_of_closed {d : Default} {ds : List Default}
    (h : anglesAfterDefaults 0 (d :: ds) = 0) :
    parameterNames (declaration (d :: ds)) =
      validate ((separated 0 (d :: ds)).map String.ofList) := by
  let gs := groups ⟨[], d, d.value⟩ (anglesAfter none 0 d.value) ds
  have hnone : forall c, c ∈ ([] : List Char) -> Text.isBlank c = true := by simp
  have hpadded : forall g, g ∈ gs ->
      exists p : Padded Item, p.text = g.text ∧ p.item.name? = some g.first.name :=
    fun g hg => exists_padded (pending_groups (pending_single hnone d) h g hg)
  have henclosed : forall g, g ∈ gs -> Enclosed g.text := by
    intro g hg
    rcases hpadded g hg with ⟨p, htext, _⟩
    rw [← htext]
    exact p.enclosed_text
  have hquote : forall g, g ∈ gs -> g.text.head? ≠ some '\'' := by
    intro g hg
    rcases hpadded g hg with ⟨p, htext, _⟩
    rw [← htext]
    exact p.head?_text_ne_quote
  have hbinds : forall g, g ∈ gs -> Binds g.text (some g.first.name) := by
    intro g hg
    rcases hpadded g hg with ⟨p, htext, hname⟩
    rw [← htext, ← hname]
    exact p.binds_text
  have hlist : written (d :: ds) = [','].intercalate (gs.map Group.text) := by
    rw [written_cons, join_groups]
    rfl
  have hnames : (gs.filterMap fun g => some g.first.name) = separated 0 (d :: ds) := by
    rw [List.filterMap_eq_map', names_groups]
    rfl
  have hread := parameterNames_of_items lead_function (groups_ne_nil _ _ ds) henclosed hquote
    hbinds
  rw [hnames] at hread
  rw [declaration, hlist]
  exact hread

theorem parameterNames_of_open {d : Default} {ds : List Default}
    (h : anglesAfterDefaults 0 (d :: ds) ≠ 0) :
    parameterNames (declaration (d :: ds)) =
      .error (.unbalanced (String.ofList (written (d :: ds)))) := by
  have hangled := angled_written d ds
  apply parameterNames_of_unbalanced
  · rw [declaration, String.toList_ofList]
    exact extent_of_angled lead_function hangled
  · rw [scan_angled hangled, anglesAfter_written, if_neg h]

theorem separated_sublist (n : Nat) (ds : List Default) :
    (separated n ds).Sublist (ds.map Default.name) := by
  induction ds generalizing n with
  | nil =>
      exact List.Sublist.slnil
  | cons d ds ih =>
      rw [separated, List.map_cons]
      split
      · exact (ih _).cons_cons d.name
      · exact (ih _).cons d.name

theorem separated_eq_iff (n : Nat) (ds : List Default) :
    separated n ds = ds.map Default.name <->
      forall front d back, ds = front ++ d :: back -> anglesAfterDefaults n front = 0 := by
  induction ds generalizing n with
  | nil =>
      simp [separated]
  | cons d ds ih =>
      by_cases hn : n = 0
      · rw [separated, if_pos hn, List.map_cons, List.cons_inj_right, ih]
        constructor
        · intro htail front e back hsplit
          cases front with
          | nil =>
              exact hn
          | cons f front =>
              rcases List.cons.inj hsplit with ⟨rfl, hrest⟩
              exact htail front e back hrest
        · intro hall front e back hsplit
          exact hall (d :: front) e back (by rw [hsplit, List.cons_append])
      · rw [separated, if_neg hn]
        constructor
        · intro heq
          have hlength := (separated_sublist (anglesAfter none n d.value) ds).length_le
          simp only [heq, List.length_map, List.length_cons] at hlength
          omega
        · intro hall
          exact absurd (hall [] d ds rfl) hn

/-- Some comma stands inside an angle, and every angle is closed at the end. -/
def HidesComma (ds : List Default) : Prop :=
  anglesAfterDefaults 0 ds = 0 ∧
    exists front d back, ds = front ++ d :: back ∧ anglesAfterDefaults 0 front ≠ 0

theorem nodup_names {ds : List Default} {names : List (List Char)}
    (hdistinct : (ds.map Default.name).Nodup) (h : names.Sublist (ds.map Default.name)) :
    (names.map String.ofList).Nodup := by
  have hinjective : Function.Injective String.ofList := fun _ _ heq => String.ofList_inj.mp heq
  exact List.Nodup.map hinjective (h.nodup hdistinct)

theorem isIdentifier_of_sublist {ds : List Default} {names : List (List Char)}
    (h : names.Sublist (ds.map Default.name)) :
    forall n, n ∈ names.map String.ofList -> Text.isIdentifier n.toList = true := by
  intro n hn
  rcases List.mem_map.mp hn with ⟨name, hname, rfl⟩
  rcases List.mem_map.mp (h.subset hname) with ⟨d, _, rfl⟩
  rw [String.toList_ofList]
  exact d.isIdentifier_name

/-- What the declaration of a function with such defaults is read as, and when a parameter is
lost: an unbalanced list is an error, and otherwise the parameters behind hidden commas are
missing. -/
theorem parameterNames_declaration {ds : List Default} (hne : ds ≠ [])
    (hdistinct : (ds.map Default.name).Nodup) :
    (parameterNames (declaration ds) =
      if anglesAfterDefaults 0 ds = 0 then .ok ((separated 0 ds).map String.ofList)
      else .error (.unbalanced (String.ofList (written ds)))) ∧
    ((parameterNames (declaration ds) = .ok (ds.map fun d => String.ofList d.name) ∨
        exists e, parameterNames (declaration ds) = .error e) <-> ¬ HidesComma ds) := by
  rcases List.exists_cons_of_ne_nil hne with ⟨d, rest, rfl⟩
  have hsublist := separated_sublist 0 (d :: rest)
  have hread : parameterNames (declaration (d :: rest)) =
      if anglesAfterDefaults 0 (d :: rest) = 0 then
        .ok ((separated 0 (d :: rest)).map String.ofList)
      else .error (.unbalanced (String.ofList (written (d :: rest)))) := by
    split
    · rename_i hclosed
      rw [parameterNames_of_closed hclosed]
      exact validate_of_nodup (isIdentifier_of_sublist hsublist)
        (nodup_names hdistinct hsublist)
    · rename_i hopen
      exact parameterNames_of_open hopen
  refine ⟨hread, ?_⟩
  rw [hread]
  by_cases hclosed : anglesAfterDefaults 0 (d :: rest) = 0
  · have hnames : ((d :: rest).map fun e => String.ofList e.name) =
        ((d :: rest).map Default.name).map String.ofList := by
      rw [List.map_map]
      rfl
    have hinjective : Function.Injective (List.map String.ofList) :=
      List.map_injective_iff.mpr fun _ _ heq => String.ofList_inj.mp heq
    rw [if_pos hclosed, hnames]
    constructor
    · rintro (hok | ⟨e, herror⟩) ⟨_, front, f, back, hsplit, hopen⟩
      · have heq := hinjective (Except.ok.inj hok)
        exact hopen ((separated_eq_iff 0 (d :: rest)).mp heq front f back hsplit)
      · cases herror
    · intro hhides
      left
      have heq : separated 0 (d :: rest) = (d :: rest).map Default.name := by
        rw [separated_eq_iff]
        intro front f back hsplit
        by_contra hopen
        exact hhides ⟨hclosed, front, f, back, hsplit, hopen⟩
      rw [heq]
  · rw [if_neg hclosed]
    constructor
    · intro _ hhides
      exact hclosed hhides.1
    · intro _
      exact Or.inr ⟨_, rfl⟩

/-!
## A comparison kept and a comparison lost

The two lists differ in the blanks around their first comparison only.
-/

/-- The defaults of `function f(a = b < c, d = e>f)`. -/
def spacedComparison : List Default :=
  [{ name := ['a'], value := ['b', ' ', '<', ' ', 'c'] },
    { name := ['d'], value := ['e', '>', 'f'] }]

/-- The defaults of `function f(a = b<c, d = e>f)`. -/
def gluedComparison : List Default :=
  [{ name := ['a'], value := ['b', '<', 'c'] },
    { name := ['d'], value := ['e', '>', 'f'] }]

theorem parameterNames_spacedComparison :
    spacedComparison ≠ [] ∧ (spacedComparison.map Default.name).Nodup ∧
      parameterNames (declaration spacedComparison) = .ok ["a", "d"] ∧
      ¬ HidesComma spacedComparison := by
  have hne : spacedComparison ≠ [] := by simp [spacedComparison]
  have hdistinct : (spacedComparison.map Default.name).Nodup := by decide
  rcases parameterNames_declaration hne hdistinct with ⟨hread, hexact⟩
  have hnames : parameterNames (declaration spacedComparison) = .ok ["a", "d"] := by
    have hclosed : anglesAfterDefaults 0 spacedComparison = 0 := by decide
    rw [hread, if_pos hclosed]
    rfl
  exact ⟨hne, hdistinct, hnames, hexact.mp (Or.inl hnames)⟩

theorem parameterNames_gluedComparison :
    declaration gluedComparison = "function f(a = b<c, d = e>f)" ∧
      parameterNames (declaration gluedComparison) = .ok ["a"] ∧
      ¬ (parameterNames (declaration gluedComparison) =
            .ok (gluedComparison.map fun d => String.ofList d.name) ∨
          exists e, parameterNames (declaration gluedComparison) = .error e) := by
  have hread : parameterNames (declaration gluedComparison) = .ok ["a"] := rfl
  refine ⟨rfl, hread, ?_⟩
  rw [hread]
  rintro (hok | ⟨e, herror⟩)
  · have hnames : ["a"] = ["a", "d"] := Except.ok.inj hok
    revert hnames
    decide
  · cases herror

end Signature
end Contracts
