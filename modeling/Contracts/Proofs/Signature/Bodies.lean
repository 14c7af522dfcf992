import Contracts.Proofs.Signature.Location

/-!
# Declarations with bodies

The body of a function stands in curly brackets behind its declaration.  A scan that comes to
the body has at most angles open, and whatever the body leaves open the curly bracket behind it
drops, so the body has no influence on the brackets of the declaration.  Nor is anything of the
body taken for the list: its characters stand inside at least one bracket, where no list opens
and no bar ends one.  So the parameters of a declaration are found where they were without the
body.
-/

namespace Contracts
namespace Signature

/-!
# The scan of a body

A lenient scan that accepts a text on its own passes it inside other brackets as well, and comes
out with nothing but angles more.
-/

theorem exists_left_of_lenient {text : List Char} :
    forall {place : Place} {previous : Option Char} {stack : List Char} {marks : List Mark},
      scanFrom .lenient place previous stack text = some marks ->
      exists left, dropAngles left = [] ∧
        forall {base rest : List Char}, base.head? ≠ some '<' -> Neutral rest ->
          scanFrom .lenient place previous (stack ++ base) (text ++ rest) =
            (scanFrom .lenient .code (lastOf previous text) (left ++ base) rest).map
              (marks.map (Mark.raise base.length) ++ ·) := by
  induction text with
  | nil =>
      intro place previous stack marks h
      rcases end_of_scanFrom h with ⟨rfl, hstack, rfl⟩
      exact ⟨stack, hstack, fun _ _ => by simp⟩
  | cons c text ih =>
      intro place previous stack marks h
      rcases exists_move_of_scanFrom h with ⟨m, tail, hmove, htail, rfl⟩
      rcases ih htail with ⟨left, hleft, hpass⟩
      refine ⟨left, hleft, ?_⟩
      intro base rest hbase hrest
      rw [List.cons_append, scanFrom_cons, move_inside hbase hrest hmove, Option.bind_some,
        hpass hbase hrest, Option.map_map]
      rfl

/-- A round bracket stands inside itself. -/
theorem isAt_round_eq_false {text : List Char} :
    forall {angles : Angles} {place : Place} {previous : Option Char} {stack : List Char}
      {marks : List Mark}, scanFrom angles place previous stack text = some marks ->
      forall m, m ∈ marks -> m.isAt '(' 0 = false := by
  induction text with
  | nil =>
      intro angles place previous stack marks h m hm
      rcases end_of_scanFrom h with ⟨_, _, rfl⟩
      cases hm
  | cons c text ih =>
      intro angles place previous stack marks h
      rcases exists_move_of_scanFrom h with ⟨move', tail, hmove, htail, rfl⟩
      refine List.forall_mem_cons.mpr ⟨?_, ih htail⟩
      by_cases hc : c = '('
      · subst hc
        cases place with
        | code =>
            have hquote : opensQuote '(' text = false := by simp [opensQuote]
            rw [move, hquote, bracket_opening (Or.inl rfl)] at hmove
            cases hmove
            simp [Mark.isAt]
        | quoted quote =>
            cases hmove
            rfl
        | escaped quote =>
            cases hmove
            rfl
      · simp [Mark.isAt, hc]

/-- Whether a mark can belong to a body: it opens no list and ends none. -/
def Mark.Inner (m : Mark) : Prop :=
  m.isAt '(' 1 = false ∧ m.isAt '|' 0 = false

theorem inner_of_char {c : Char} (hround : c ≠ '(') (hbar : c ≠ '|') (depth : Option Nat) :
    Mark.Inner ⟨c, depth⟩ := by
  simp [Mark.Inner, Mark.isAt, hround, hbar]

theorem inner_raise {m : Mark} (h : m.isAt '(' 0 = false) (n : Nat) :
    (m.raise (n + 1)).Inner := by
  constructor
  · cases hdepth : m.depth with
    | none =>
        simp [Mark.isAt, Mark.raise, hdepth]
    | some d =>
        simp only [Mark.isAt, hdepth] at h
        simp only [Mark.isAt, Mark.raise, hdepth, Option.map_some]
        cases d with
        | zero =>
            have hchar : (m.char == '(') = false := by simpa using h
            rw [hchar, Bool.false_and]
        | succ d =>
            have hne : d + 1 + (n + 1) ≠ 1 := by omega
            simp [hne]
  · exact isAt_raise_of_lt (Nat.succ_pos n) '|' m

/-- A text in curly brackets behind a declaration. -/
def withBody (text body : List Char) : List Char :=
  text ++ ' ' :: '\x7b' :: (body ++ ['\x7d'])

theorem scan_withBody {text body : List Char} {marks inside : List Mark}
    (htext : scan .lenient text = some marks) (hbody : scan .lenient body = some inside) :
    exists more, scan .lenient (withBody text body) = some (marks ++ more) ∧
      forall m, m ∈ more -> m.Inner := by
  rcases exists_left_of_lenient htext with ⟨left, hleft, hpass⟩
  rcases exists_left_of_lenient hbody with ⟨open', hopen, hbodyPass⟩
  let n := left.length
  have hcurly : ('\x7b' :: left).head? ≠ some '<' := by simp
  have hneutral : Neutral ['\x7d'] := neutral_cons (by decide) (by decide) (by simp)
  have hdrop : dropAngles (open' ++ '\x7b' :: left) = '\x7b' :: left := by
    have hsettle := settle_append hcurly .lenient open'
    simp only [settle, hopen, List.nil_append] at hsettle
    exact hsettle
  -- The curly bracket behind the body finds the one before it, so the brackets are those left
  -- open by the declaration again.
  have hclose : forall previous, scanFrom .lenient .code previous (open' ++ '\x7b' :: left)
      ['\x7d'] = some [⟨'\x7d', some n⟩] := by
    intro previous
    have hopening : opening? '\x7d' = some '\x7b' := rfl
    have hbracket : bracket .lenient previous (open' ++ '\x7b' :: left) '\x7d' = some left := by
      rw [bracket_of_closes hopening, settle, hdrop]
      rfl
    rw [scanFrom_cons_code rfl hbracket]
    simp [scanFrom, settle, hleft, n]
  have hinside := hbodyPass hcurly hneutral
  rw [hclose, List.nil_append] at hinside
  have hdetached : Detached (some '\x7b') := by
    constructor <;> decide
  have hrest : scanFrom .lenient .code (lastOf none text) left
      (' ' :: '\x7b' :: (body ++ ['\x7d'])) =
      some (⟨' ', some n⟩ :: ⟨'\x7b', some (n + 1)⟩ ::
        (inside.map (Mark.raise (n + 1)) ++ [⟨'\x7d', some n⟩])) := by
    have hquote : opensQuote '\x7b' (body ++ ['\x7d']) = false := by simp [opensQuote]
    rw [scanFrom_cons_plain (by decide),
      scanFrom_cons_code hquote (bracket_opening (Or.inr (Or.inr rfl)) .lenient _ left),
      scanFrom_of_detached hdetached, hinside]
    rfl
  have hneutral' : Neutral (' ' :: '\x7b' :: (body ++ ['\x7d'])) :=
    neutral_cons (by decide) (by decide) (by simp)
  have hbase : ([] : List Char).head? ≠ some '<' := by simp
  have hscan := hpass hbase hneutral'
  rw [List.nil_append, List.append_nil, hrest, List.length_nil, map_raise_zero] at hscan
  refine ⟨_, hscan, ?_⟩
  intro m hm
  simp only [List.mem_cons, List.mem_append, List.mem_map, List.not_mem_nil, or_false] at hm
  rcases hm with rfl | rfl | ⟨i, hi, rfl⟩ | rfl
  · exact inner_of_char (by decide) (by decide) _
  · exact inner_of_char (by decide) (by decide) _
  · exact inner_raise (isAt_round_eq_false hbody i hi) n
  · exact inner_of_char (by decide) (by decide) _

/-!
# Where the list stands

Every search for the list stops where it stopped without the body.
-/

section

variable {text : List Char} {more : List Mark}

theorem closureList?_withBody (body : List Char) (marks : List Mark)
    (hend : text.getLast? = some ')') (hmore : forall m, m ∈ more -> m.Inner) :
    closureList? (withBody text body) (marks ++ more) = closureList? text marks := by
  have hstarts : startsClosure (withBody text body) = startsClosure text := by
    rcases List.getLast?_eq_some_iff.mp hend with ⟨front, rfl⟩
    rw [withBody, List.append_assoc, List.singleton_append]
    exact startsClosure_congr (by decide) (by decide) front _ _
  have hbar : forall m, m ∈ more -> m.isAt '|' 0 = false := fun m hm => (hmore m hm).2
  unfold closureList?
  rw [hstarts, cut?_append_quiet hbar]
  cases cut? (Mark.isAt '|' 0) marks with
  | none =>
      rfl
  | some parts =>
      have hclose := cut?_append_quiet hbar parts.2
      cases hcut : cut? (Mark.isAt '|' 0) parts.2 with
      | none =>
          rw [hcut] at hclose
          simp [hcut, hclose]
      | some inner =>
          rw [hcut] at hclose
          simp [hcut, hclose]

theorem opened?_append (marks : List Mark) (hmore : forall m, m ∈ more -> m.Inner) :
    opened? (marks ++ more) = (opened? marks).map (· ++ more) := by
  have hround : forall m, m ∈ more -> m.isAt '(' 1 = false := fun m hm => (hmore m hm).1
  unfold opened?
  rw [cut?_append_quiet hround]
  cases cut? (Mark.isAt '(' 1) marks with
  | none =>
      rfl
  | some parts =>
      cases harrow : (beforeArrow? (chars parts.1)).isSome with
      | true =>
          simp [harrow]
      | false =>
          simp [harrow]

theorem arrowExtent_append {e : Extent} (h : arrowExtent text = .ok e) (rest : List Char) :
    arrowExtent (text ++ rest) = .ok e := by
  unfold arrowExtent at h ⊢
  cases hbefore : beforeArrow? text with
  | none =>
      rw [hbefore] at h
      cases h
  | some before =>
      rw [hbefore] at h
      rw [beforeArrow?_append_of_some hbefore]
      exact arrowParameter_of_ok h _

/-- The parameters of a declaration are found where they were when a body follows. -/
theorem locate_withBody {body : List Char} {marks : List Mark} {e : Extent}
    (hend : text.getLast? = some ')') (hmore : forall m, m ∈ more -> m.Inner)
    (h : locate text marks = .ok e) :
    locate (withBody text body) (marks ++ more) = .ok e := by
  have hclosure := closureList?_withBody body marks hend hmore
  cases hlist : closureList? text marks with
  | some list =>
      rw [hlist] at hclosure
      rw [locate_of_closure hlist] at h
      rw [locate_of_closure hclosure]
      exact h
  | none =>
      rw [hlist] at hclosure
      have hopened := opened?_append marks hmore
      cases hopen : opened? marks with
      | none =>
          rw [hopen] at hopened
          rw [locate_of_arrow hlist hopen] at h
          rw [locate_of_arrow hclosure hopened]
          exact arrowExtent_append h _
      | some after =>
          rw [hopen] at hopened
          rw [locate_of_opened hlist hopen] at h
          rw [locate_of_opened hclosure hopened]
          cases hcut : cut? (Mark.isAt ')' 0) after with
          | none =>
              rw [hcut] at h
              cases h
          | some parts =>
              rw [hcut] at h
              rw [cut?_append_of_some hcut]
              exact h

end

/-!
# The names
-/

/-- Whatever stands in the body of a function, its parameters have the names they have without
it: a declaration that can be read is read alike with any body that could be read on its own. -/
theorem parameterNames_body {text body : String} {names : List String} {inside : List Mark}
    (hend : text.toList.getLast? = some ')') (hnames : parameterNames text = .ok names)
    (hbody : scan .lenient body.toList = some inside) :
    parameterNames (text ++ " \x7b" ++ body ++ "\x7d") = .ok names := by
  have htext : (text ++ " \x7b" ++ body ++ "\x7d").toList = withBody text.toList body.toList := by
    simp only [String.toList_append, withBody, List.append_assoc]
    rfl
  rw [parameterNames_eq_bind] at hnames
  rw [parameterNames_eq_bind, htext]
  cases hscan : scan .lenient text.toList with
  | none =>
      rw [extent_of_scan_none hscan] at hnames
      cases hnames
  | some marks =>
      rcases scan_withBody hscan hbody with ⟨more, hmarks, hmore⟩
      rw [extent_of_scan hscan] at hnames
      rw [extent_of_scan hmarks]
      cases hlocate : locate text.toList marks with
      | error e =>
          rw [hlocate] at hnames
          cases hnames
      | ok e =>
          rw [hlocate] at hnames
          rw [locate_withBody hend hmore hlocate]
          exact hnames

/-- A closure whose own text ends in a call, and a body with comparisons, an arrow, bars, commas,
and brackets in quotes. -/
theorem parameterNames_body_closure :
    "|n: M<K, V>, d| f(n)".toList.getLast? = some ')' ∧
    parameterNames "|n: M<K, V>, d| f(n)" = .ok ["n", "d"] ∧
    (exists inside, scan .lenient "if n<d | g(n, x) => \")(\"".toList = some inside) ∧
    parameterNames ("|n: M<K, V>, d| f(n)" ++ " \x7b" ++ "if n<d | g(n, x) => \")(\"" ++ "\x7d") =
      .ok ["n", "d"] := by
  have hend : "|n: M<K, V>, d| f(n)".toList.getLast? = some ')' := by decide
  have hnames : parameterNames "|n: M<K, V>, d| f(n)" = .ok ["n", "d"] := rfl
  have hbody : exists inside, scan .lenient "if n<d | g(n, x) => \")(\"".toList = some inside :=
    ⟨_, rfl⟩
  refine ⟨hend, hnames, hbody, ?_⟩
  rcases hbody with ⟨inside, hinside⟩
  exact parameterNames_body hend hnames hinside

end Signature
end Contracts
