import Mathlib.Data.List.Dedup
import Contracts.Proofs.Entries
import Contracts.Proofs.Script.Misuses
import Contracts.Proofs.Signature.Reading

/-!
# Names and positions

The parameters of a call are bound by position.  Where a name stands more than once, its first
position decides its place among the names and its last one the argument that it holds.  The
readers that look their names over accept no repeated name, so a position there is the position
of a name and of its argument alike.
-/

namespace Contracts

/-! ## Positions of names -/

/-- Whether an index is the last one at which a name stands in a list. -/
structure LastAt (names : List String) (name : String) (i : Nat) : Prop where
  at_index : names[i]? = some name
  not_after : forall j, i < j -> names[j]? ≠ some name

theorem LastAt.exists_split {names : List String} {name : String} {i : Nat}
    (h : LastAt names name i) : exists front back,
      names = front ++ name :: back ∧ front.length = i ∧ name ∉ back := by
  rcases List.getElem?_eq_some_iff.mp h.at_index with ⟨hi, hname⟩
  have hsplit : names = names.take i ++ name :: names.drop (i + 1) := by
    rw [← hname, ← List.drop_eq_getElem_cons hi, List.take_append_drop]
  have hlength : (names.take i).length = i := List.length_take_of_le (Nat.le_of_lt hi)
  refine ⟨names.take i, names.drop (i + 1), hsplit, hlength, ?_⟩
  intro hmem
  rcases List.mem_iff_getElem?.mp hmem with ⟨j, hj⟩
  rw [List.getElem?_drop] at hj
  exact h.not_after (i + 1 + j) (by omega) hj

theorem exists_lastAt {names : List String} {name : String} (h : name ∈ names) :
    exists i, LastAt names name i := by
  induction names using List.reverseRecOn with
  | nil =>
      cases h
  | append_singleton front last ih =>
      by_cases hlast : last = name
      · refine ⟨front.length, ?_, ?_⟩
        · rw [List.getElem?_concat_length, hlast]
        · intro j hj
          have hend : (front ++ [last]).length ≤ j := by
            rw [List.length_append, List.length_singleton]
            exact hj
          rw [List.getElem?_eq_none hend]
          nofun
      · have hfront : name ∈ front := by
          rcases List.mem_append.mp h with h | h
          · exact h
          · exact absurd (List.mem_singleton.mp h).symm hlast
        rcases ih hfront with ⟨i, hi⟩
        have hlength : i < front.length := (List.getElem?_eq_some_iff.mp hi.at_index).1
        refine ⟨i, ?_, ?_⟩
        · rw [List.getElem?_append_left hlength]
          exact hi.at_index
        · intro j hj heq
          rcases Nat.lt_or_ge j front.length with hlt | hge
          · rw [List.getElem?_append_left hlt] at heq
            exact hi.not_after j hj heq
          · rw [List.getElem?_append_right hge, List.getElem?_singleton] at heq
            split at heq
            · exact hlast (Option.some.inj heq)
            · cases heq

/-- Among distinct names every position is the last one of its name. -/
theorem lastAt_of_nodup {names : List String} (hnodup : names.Nodup) {name : String} {i : Nat}
    (h : names[i]? = some name) : LastAt names name i := by
  refine ⟨h, ?_⟩
  intro j hj heq
  have hi : i < names.length := (List.getElem?_eq_some_iff.mp h).1
  have hsame : i = j := (List.nodup_iff_getElem?_ne_getElem?.mp hnodup i j hj
    (List.getElem?_eq_some_iff.mp heq).1 (h.trans heq.symm)).elim
  omega

/-! ## Bindings -/

namespace Bindings

variable (names : List String) (args : List Value)

theorem keys_pair : Entries.keys (pair names args) = names := by
  induction names generalizing args with
  | nil =>
      rfl
  | cons name rest ih =>
      show name :: Entries.keys (pair rest args.tail) = _
      rw [ih]

theorem pair_append (front back : List String) :
    pair (front ++ back) args = pair front args ++ pair back (args.drop front.length) := by
  induction front generalizing args with
  | nil =>
      rfl
  | cons name rest ih =>
      rw [List.cons_append, pair, ih, pair, List.length_cons, List.drop_tail]
      rfl

variable {names}

/-- A parameter holds the argument at the last position of its name. -/
theorem get?_of_lastAt {name : String} {i : Nat} (h : LastAt names name i) :
    Entries.get? name (ofArguments names args).params =
      some { value := args[i]?.getD .missing, name := name } := by
  rcases h.exists_split with ⟨front, back, rfl, rfl, hback⟩
  unfold ofArguments
  rw [pair_append, pair, List.headD_eq_head?_getD, List.head?_drop]
  apply Entries.get?_ofPairs_append_cons
  rw [keys_pair]
  exact hback

theorem param_of_lastAt {name : String} {i : Nat} (h : LastAt names name i) :
    (ofArguments names args).param name =
      .ok { value := args[i]?.getD .missing, name := name } := by
  unfold param
  rw [get?_of_lastAt args h]

theorem index_of_lastAt {name : String} {i : Nat} (h : LastAt names name i) :
    (ofArguments names args).index name =
      .ok { value := args[i]?.getD .missing, name := name } := by
  unfold index
  rw [get?_of_lastAt args h]

theorem index_of_not_mem {b : Bindings} {name : String} (h : name ∉ b.names) :
    b.index name = .error ⟨name⟩ := by
  unfold index
  rw [Entries.get?_eq_none_iff.mpr h]

variable (names)

theorem mem_names_ofArguments (name : String) :
    name ∈ (ofArguments names args).names <-> name ∈ names := by
  have hmem := Entries.mem_keys_ofPairs name (pair names args)
  rw [keys_pair] at hmem
  exact hmem

theorem ordered_names : (ofArguments names args).names.Pairwise fun m n =>
    names.idxOf m < names.idxOf n := by
  have hordered := Entries.ordered_keys_ofPairs (pair names args)
  rw [keys_pair] at hordered
  exact hordered

theorem nodup_names : (ofArguments names args).names.Nodup := by
  apply (ordered_names names args).imp
  intro m n hlt heq
  rw [heq] at hlt
  exact Nat.lt_irrefl _ hlt

theorem size_ofArguments : (ofArguments names args).size = names.dedup.length := by
  have hperm : (ofArguments names args).names.Perm names.dedup := by
    apply (List.perm_ext_iff_of_nodup (nodup_names names args) (List.nodup_dedup names)).mpr
    intro name
    rw [mem_names_ofArguments, List.mem_dedup]
  rw [← hperm.length_eq]
  exact (List.length_map _).symm

end Bindings

/-! ## Names that a reader accepts -/

namespace Signature

theorem nodup_of_validateFrom {seen names : List String}
    (h : validateFrom seen names = .ok ()) :
    names.Nodup ∧ forall n, n ∈ names -> n ∉ seen := by
  induction names generalizing seen with
  | nil =>
      exact ⟨List.nodup_nil, nofun⟩
  | cons name rest ih =>
      unfold validateFrom at h
      split at h
      · cases h
      · split at h
        · cases h
        · rename_i hnew
          rcases ih h with ⟨hnodup, hrest⟩
          have hname : name ∉ seen := by simpa using hnew
          refine ⟨List.nodup_cons.mpr ⟨fun hmem => hrest name hmem List.mem_cons_self, hnodup⟩, ?_⟩
          rw [List.forall_mem_cons]
          exact ⟨hname, fun n hn hseen => hrest n hn (List.mem_cons_of_mem _ hseen)⟩

theorem isIdentifier_of_validateFrom {seen names : List String}
    (h : validateFrom seen names = .ok ()) :
    forall n, n ∈ names -> Text.isIdentifier n.toList = true := by
  induction names generalizing seen with
  | nil =>
      nofun
  | cons name rest ih =>
      unfold validateFrom at h
      split at h
      · cases h
      · rename_i hname
        split at h
        · cases h
        · rw [List.forall_mem_cons]
          exact ⟨by simpa using hname, ih h⟩

/-- Names that are accepted are left as they are. -/
theorem validateFrom_of_validate {names accepted : List String}
    (h : validate names = .ok accepted) : accepted = names ∧ validateFrom [] names = .ok () := by
  unfold validate at h
  cases hvalid : validateFrom [] names with
  | error e =>
      rw [hvalid] at h
      cases h
  | ok x =>
      rw [hvalid] at h
      cases h
      exact ⟨rfl, rfl⟩

theorem nodup_of_validate {names accepted : List String} (h : validate names = .ok accepted) :
    accepted.Nodup := by
  rcases validateFrom_of_validate h with ⟨rfl, hvalid⟩
  exact (nodup_of_validateFrom hvalid).1

theorem nodup_of_parameterNames {text : String} {names : List String}
    (h : parameterNames text = .ok names) : names.Nodup := by
  rcases exists_of_bind_eq_ok h with ⟨located, _, hnames⟩
  cases located with
  | single name =>
      cases hnames
      exact List.nodup_singleton _
  | list list =>
      rcases exists_of_bind_eq_ok hnames with ⟨parts, _, hparts⟩
      rcases exists_of_bind_eq_ok hparts with ⟨texts, _, htexts⟩
      exact nodup_of_validate htexts

/-- Whether a reader looks its names over before it answers. -/
def validates : Signature -> Bool
  | declared _ =>
      true
  | listed _ =>
      true
  | answered _ =>
      false

theorem nodup_of_names {reader : Signature} (hvalidates : reader.validates = true)
    {names : List String} (h : reader.names = .ok names) : names.Nodup := by
  cases reader with
  | declared text =>
      exact nodup_of_parameterNames h
  | listed list =>
      exact nodup_of_validate h
  | answered answer =>
      cases hvalidates

end Signature

/-! ## What is bound -/

/-- Whether an assertion has a name and a value, and its negation too. -/
structure Assertion.Holds (a : Assertion) (name : String) (value : Value) : Prop where
  name_eq : a.name = name ∧ a.negation.name = name
  value_eq : a.value = value ∧ a.negation.value = value
  negated_eq : a.negated = false ∧ a.negation.negated = true

theorem Assertion.holds_mk (name : String) (value : Value) :
    Holds { value := value, name := name } name value :=
  ⟨⟨rfl, rfl⟩, ⟨rfl, rfl⟩, ⟨rfl, rfl⟩⟩

/-- How bindings place names and arguments. -/
structure Bindings.Places (names : List String) (args : List Value) (b : Bindings) : Prop where
  mem_names_iff : forall name, name ∈ b.names <-> name ∈ names
  ordered : b.names.Pairwise fun m n => names.idxOf m < names.idxOf n
  size_eq : b.size = names.dedup.length
  bound : forall name, name ∈ names -> exists i a, LastAt names name i ∧
    b.param name = .ok a ∧ b.index name = .ok a ∧ a.Holds name (args[i]?.getD .missing)
  unbound : forall name, name ∉ names ->
    b.param name = .error (.unknownParameter name) ∧ b.index name = .error ⟨name⟩

theorem Bindings.places_ofArguments (names : List String) (args : List Value) :
    Places names args (ofArguments names args) := by
  constructor
  case mem_names_iff =>
    exact mem_names_ofArguments names args
  case ordered =>
    exact ordered_names names args
  case size_eq =>
    exact size_ofArguments names args
  case bound =>
    intro name hname
    rcases exists_lastAt hname with ⟨i, hi⟩
    exact ⟨i, _, hi, param_of_lastAt args hi, index_of_lastAt args hi, Assertion.holds_mk _ _⟩
  case unbound =>
    intro name hname
    have hnone : name ∉ (ofArguments names args).names :=
      mt (mem_names_ofArguments names args name).mp hname
    exact ⟨param_of_not_mem hnone, index_of_not_mem hnone⟩

/-- Distinct names are bound position by position. -/
theorem Bindings.names_of_nodup {names : List String} (hnodup : names.Nodup) (args : List Value) :
    (ofArguments names args).names = names := by
  have hkeys := keys_pair names args
  have hpairs : ((pair names args).map Prod.fst).Nodup := by
    show (Entries.keys (pair names args)).Nodup
    rw [hkeys]
    exact hnodup
  unfold Bindings.names ofArguments
  rw [Entries.ofPairs_of_nodup hpairs]
  exact hkeys

/-- Bindings list the distinct names in the order of their first positions, and hold under each
name the argument at its last position, or a missing one where no argument stands there.  A name
that is not in the list is unbound.  So a reader that looks its names over has every name bound to
the argument at its own position. -/
theorem Bindings.ofArguments_positional :
    (forall names args, Places names args (ofArguments names args)) ∧
    forall (reader : Signature) (names : List String) (args : List Value),
      reader.validates = true -> reader.names = .ok names ->
      (ofArguments names args).names = names ∧
      forall (i : Nat) name, names[i]? = some name ->
        exists a, (ofArguments names args).param name = .ok a ∧
          a.Holds name (args[i]?.getD .missing) := by
  refine ⟨places_ofArguments, ?_⟩
  intro reader names args hvalidates hnames
  have hnodup := Signature.nodup_of_names hvalidates hnames
  refine ⟨names_of_nodup hnodup args, ?_⟩
  intro i name hname
  exact ⟨_, param_of_lastAt args (lastAt_of_nodup hnodup hname), Assertion.holds_mk _ _⟩

/-- A declaration of three parameters, called with two arguments. -/
theorem Bindings.ofArguments_positional_short :
    (Signature.declared "fn f(a, mut b: u8, c = [1, 2])").validates = true ∧
    (Signature.declared "fn f(a, mut b: u8, c = [1, 2])").names = .ok ["a", "b", "c"] ∧
    (exists a, (ofArguments ["a", "b", "c"] [.int 1, .array ⟨0⟩ []]).param "b" = .ok a ∧
      a.Holds "b" (.array ⟨0⟩ [])) ∧
    exists a, (ofArguments ["a", "b", "c"] [.int 1, .array ⟨0⟩ []]).param "c" = .ok a ∧
      a.Holds "c" .missing := by
  have hnames : (Signature.declared "fn f(a, mut b: u8, c = [1, 2])").names =
      .ok ["a", "b", "c"] := rfl
  have hbound := (ofArguments_positional.2 _ _ [.int 1, .array ⟨0⟩ []] rfl hnames).2
  exact ⟨rfl, hnames, hbound 1 "b" rfl, hbound 2 "c" rfl⟩

end Contracts
