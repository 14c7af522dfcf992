import Contracts.Proofs.Signature.QuotedRuns

/-!
# Declarations that differ in a quoted run

The list of a declaration, its pieces and their heads are found by marks, so they are the same
but for the run that one of them holds.  Two searches read the text as it stands: the one for
the first arrow, and the one for the words of a receiver.  Where these come to the same, so do
the names.
-/

namespace Contracts

/-- Whether two results are both errors, or values that are related. -/
inductive Alike {ε α β : Type} (R : α -> β -> Prop) : Except ε α -> Except ε β -> Prop where
  | ok {x : α} {y : β} (h : R x y) : Alike R (.ok x) (.ok y)
  | error (e e' : ε) : Alike R (.error e) (.error e')

namespace Alike

variable {ε α β γ δ : Type}

theorem bind {R : α -> β -> Prop} {S : γ -> δ -> Prop} {x : Except ε α} {y : Except ε β}
    {f : α -> Except ε γ} {g : β -> Except ε δ} (h : Alike R x y)
    (hfg : forall a b, R a b -> Alike S (f a) (g b)) : Alike S (x.bind f) (y.bind g) := by
  cases h with
  | ok hxy =>
      exact hfg _ _ hxy
  | error e e' =>
      exact .error e e'

theorem of_toOption {R : α -> α -> Prop} (hrefl : forall a, R a a) {x y : Except ε α}
    (h : x.toOption = y.toOption) : Alike R x y := by
  cases x with
  | error e =>
      cases y with
      | error e' =>
          exact .error e e'
      | ok b =>
          cases h
  | ok a =>
      cases y with
      | error e' =>
          cases h
      | ok b =>
          cases h
          exact .ok (hrefl a)

theorem error_or_ok {R : α -> β -> Prop} {x : Except ε α} {y : Except ε β} (h : Alike R x y) :
    (exists e e', x = .error e ∧ y = .error e') ∨
      exists a b, x = .ok a ∧ y = .ok b ∧ R a b := by
  cases h with
  | ok hxy =>
      exact Or.inr ⟨_, _, rfl, rfl, hxy⟩
  | error e e' =>
      exact Or.inl ⟨e, e', rfl, rfl⟩

theorem toOption_eq {x y : Except ε α} (h : Alike Eq x y) : x.toOption = y.toOption := by
  cases h with
  | ok hxy =>
      rw [hxy]
  | error e e' =>
      rfl

end Alike

namespace Signature

/-!
# Where the list stands
-/

section

variable {quote : Char} (hquote : isRunQuote quote = true)
include hquote

theorem isBlank_of_isRunQuote : Text.isBlank quote = false :=
  isBlank_eq_false_of_opensQuote (opensQuote_of_isRunQuote hquote [])

theorem continuesIdentifier_of_isRunQuote : Text.continuesIdentifier quote = false := by
  simp only [isRunQuote, Bool.or_eq_true, beq_iff_eq] at hquote
  rcases hquote with rfl | rfl
  · decide
  · decide

theorem not_mem_of_isRunQuote {word : List Char} (hword : word.any isRunQuote = false) :
    quote ∉ word := by
  intro hmem
  have hany := List.any_eq_true.mpr ⟨quote, hmem, hquote⟩
  rw [hword] at hany
  cases hany

/-- The first arrow stands in front of a run, in it or behind it. -/
theorem beforeArrow?_run (front content back : List Char) :
    beforeArrow? (front ++ (quoted quote content ++ back)) =
      (beforeArrow? front).or (((beforeArrow? content).map (front ++ quote :: ·)).or
        ((beforeArrow? back).map fun before => front ++ (quoted quote content ++ before))) := by
  have hequals : quote ≠ '=' := ne_of_isRunQuote hquote rfl
  have hgreater : quote ≠ '>' := ne_of_isRunQuote hquote rfl
  cases hfront : beforeArrow? front with
  | some before =>
      rw [beforeArrow?_append_of_some hfront]
      rfl
  | none =>
      have hrun : quoted quote content ++ back = quote :: (content ++ quote :: back) := by
        simp [quoted]
      rw [beforeArrow?_append_of_none hfront (Or.inr (by simp [hrun, hgreater])), hrun,
        beforeArrow?, if_neg (by simp [hequals])]
      cases hcontent : beforeArrow? content with
      | some before =>
          rw [beforeArrow?_append_of_some hcontent]
          rfl
      | none =>
          rw [beforeArrow?_append_of_none hcontent (Or.inr (by simp [hgreater])),
            beforeArrow?, if_neg (by simp [hequals])]
          cases beforeArrow? back with
          | none =>
              rfl
          | some before =>
              simp [quoted]

theorem isSome_beforeArrow?_run (front content back : List Char) :
    (beforeArrow? (front ++ (quoted quote content ++ back))).isSome =
      ((beforeArrow? front).isSome || (beforeArrow? content).isSome ||
        (beforeArrow? back).isSome) := by
  rw [beforeArrow?_run hquote, Option.isSome_or, Option.isSome_or, Option.isSome_map,
    Option.isSome_map, Bool.or_assoc]

end

/-- Whether no arrow in a run comes first. -/
def Unarrowed (front content : List Char) : Prop :=
  (beforeArrow? front).isSome = true ∨ beforeArrow? content = none

/-- The same name, or lists that are the same up to the run. -/
inductive VeiledExtent (quote : Char) (one other : List Char) : Extent -> Extent -> Prop where
  | same (e : Extent) : VeiledExtent quote one other e e
  | list {text text' : List Char} (h : Veiled quote one other text text') :
      VeiledExtent quote one other (.list text) (.list text')

theorem closureList?_veiled {quote : Char} {one other text text' : List Char}
    {marks marks' : List Mark}
    (hstarts : startsClosure text = startsClosure text')
    (h : VeiledMarks quote one other marks marks') :
    (closureList? text marks = none ∧ closureList? text' marks' = none) ∨
      exists list list', closureList? text marks = some list ∧
        closureList? text' marks' = some list' ∧ Veiled quote one other list list' := by
  unfold closureList?
  rw [hstarts]
  cases startsClosure text' with
  | false =>
      exact Or.inl ⟨rfl, rfl⟩
  | true =>
      rcases cut?_of_veiled (onCode_isAt '|' 0) h with ⟨hnone, hnone'⟩ |
        ⟨_, after, _, after', hcut, hcut', _, hafter⟩
      · simp [hnone, hnone']
      · rcases cut?_of_veiled (onCode_isAt '|' 0) hafter with ⟨hnone, hnone'⟩ |
          ⟨inside, _, inside', _, hend, hend', hinside, _⟩
        · simp [hcut, hcut', hnone, hnone']
        · right
          refine ⟨chars inside, chars inside', ?_, ?_, hinside.chars⟩
          · simp [hcut, hend]
          · simp [hcut', hend']

section

variable {quote : Char} {one other front : List Char} {lead : List Mark}
  (hquote : isRunQuote quote = true)
include hquote

/-- Of the text before an arrow behind a run nothing in the run counts, since the word that the
run ends in is no identifier. -/
theorem arrowExtent_veiled (hone : Unarrowed front one) (hother : Unarrowed front other)
    (back : List Char) :
    Alike (VeiledExtent quote one other) (arrowExtent (front ++ (quoted quote one ++ back)))
      (arrowExtent (front ++ (quoted quote other ++ back))) := by
  apply Alike.of_toOption .same
  unfold arrowExtent
  rw [beforeArrow?_run hquote, beforeArrow?_run hquote]
  cases hfront : beforeArrow? front with
  | some before =>
      simp only [Option.some_or, toOption_arrowParameter]
  | none =>
      have hnone : forall content, Unarrowed front content -> beforeArrow? content = none := by
        intro content h
        rcases h with h | h
        · rw [hfront] at h
          cases h
        · exact h
      rw [hnone one hone, hnone other hother]
      cases beforeArrow? back with
      | none =>
          rfl
      | some before =>
          have hlast : forall content,
              (Text.words (front ++ (quoted quote content ++ before))).getLast?.filter
                  Text.isIdentifier =
                (Text.words (quote :: before)).getLast?.filter Text.isIdentifier := by
            intro content
            have hrun : front ++ (quoted quote content ++ before) =
                (front ++ quote :: content) ++ quote :: before := by
              simp [quoted]
            rw [hrun]
            exact Text.getLast?_words_append (isBlank_of_isRunQuote hquote)
              (continuesIdentifier_of_isRunQuote hquote) _ _
          simp only [Option.none_or, Option.map_none, Option.map_some, toOption_arrowParameter,
            hlast]

/-- Where a run stands in front of the round bracket, an arrow in it could send the search to the
arrow.  It finds the bracket again as soon as no arrow in the run comes first. -/
theorem opened?_veiled (hlead : Leads quote one other lead) (tail : List Mark)
    (hone : opened? (lead ++ (hidden (quoted quote one) ++ tail)) = none ->
      Unarrowed (chars lead) one)
    (hother : opened? (lead ++ (hidden (quoted quote other) ++ tail)) = none ->
      Unarrowed (chars lead) other) :
    (opened? (lead ++ (hidden (quoted quote one) ++ tail)) = none ∧
      opened? (lead ++ (hidden (quoted quote other) ++ tail)) = none) ∨
    exists after after',
      opened? (lead ++ (hidden (quoted quote one) ++ tail)) = some after ∧
      opened? (lead ++ (hidden (quoted quote other) ++ tail)) = some after' ∧
      VeiledMarks quote one other after after' := by
  unfold opened? at hone hother ⊢
  rcases cut?_veiled (onCode_isAt '(' 1) hlead tail with ⟨hnone, hnone'⟩ |
    ⟨before, after, hcut, hcut', hafter⟩ | ⟨before, after, hcut, hcut'⟩
  · simp [hnone, hnone']
  · simp only [hcut, hcut']
    cases (beforeArrow? (chars before)).isSome with
    | true =>
        exact Or.inl ⟨rfl, rfl⟩
    | false =>
        exact Or.inr ⟨_, _, rfl, rfl, .run hafter⟩
  · have hbefore : forall content,
        (beforeArrow? (chars (lead ++ (hidden (quoted quote content) ++ before)))).isSome =
          ((beforeArrow? (chars lead)).isSome || (beforeArrow? content).isSome ||
            (beforeArrow? (chars before)).isSome) := by
      intro content
      rw [← isSome_beforeArrow?_run hquote]
      simp [chars, hidden, Function.comp_def]
    simp only [hcut, hcut', hbefore] at hone hother ⊢
    cases haround : (beforeArrow? (chars lead)).isSome || (beforeArrow? (chars before)).isSome with
    | true =>
        left
        rcases Bool.or_eq_true_iff.mp haround with h | h
        · simp [h]
        · simp [h]
    | false =>
        rcases Bool.or_eq_false_iff.mp haround with ⟨hfront, hbehind⟩
        have hnone : forall content,
            ((beforeArrow? content).isSome = true -> Unarrowed (chars lead) content) ->
            (beforeArrow? content).isSome = false := by
          intro content h
          by_contra hsome
          rw [Bool.not_eq_false] at hsome
          rcases h hsome with hlead' | hcontent
          · rw [hfront] at hlead'
            cases hlead'
          · rw [hcontent] at hsome
            cases hsome
        rw [hfront, hbehind, Bool.false_or, Bool.or_false] at hone hother ⊢
        rw [Bool.false_or, Bool.or_false]
        have hone' := hnone one fun h => hone (if_pos h)
        have hother' := hnone other fun h => hother (if_pos h)
        rw [hone', hother']
        exact Or.inr ⟨after, after, rfl, rfl, .same after⟩

end

section

variable {quote : Char} {one other front back : List Char} (hquote : isRunQuote quote = true)
  (hone : staysQuoted quote false one = true) (hother : staysQuoted quote false other = true)
include hquote hone hother

/-- The parameters of a declaration stand where they stood when a run holds something else, as
long as no arrow in the run comes first where the arrow decides. -/
theorem extent_veiled (hfront : Sealed quote one other front)
    (harrow : extent (front ++ (quoted quote one ++ back)) =
      arrowExtent (front ++ (quoted quote one ++ back)) -> Unarrowed front one)
    (harrow' : extent (front ++ (quoted quote other ++ back)) =
      arrowExtent (front ++ (quoted quote other ++ back)) -> Unarrowed front other) :
    Alike (VeiledExtent quote one other) (extent (front ++ (quoted quote one ++ back)))
      (extent (front ++ (quoted quote other ++ back))) := by
  rcases scanFrom_veiled hquote hone hother .lenient back none [] hfront.one hfront.other with
    ⟨hnone, hnone'⟩ | ⟨lead, tail, hmarks, hmarks', rfl, hsealed⟩
  · rw [extent_of_scan_none hnone, extent_of_scan_none hnone']
    exact .error _ _
  have hlead : Leads quote one other lead := ⟨hfront, hsealed⟩
  have hveiled : VeiledMarks quote one other (lead ++ (hidden (quoted quote one) ++ tail))
      (lead ++ (hidden (quoted quote other) ++ tail)) := .run hlead
  have hstarts : startsClosure (chars lead ++ (quoted quote one ++ back)) =
      startsClosure (chars lead ++ (quoted quote other ++ back)) :=
    startsClosure_congr (isBlank_of_isRunQuote hquote) (not_mem_of_isRunQuote hquote rfl) _ _ _
  rw [extent_of_scan hmarks] at harrow ⊢
  rw [extent_of_scan hmarks'] at harrow' ⊢
  rcases closureList?_veiled hstarts hveiled with ⟨hclosure, hclosure'⟩ |
    ⟨list, list', hlist, hlist', hinside⟩
  · rcases opened?_veiled hquote hlead tail
        (fun hopened => harrow (locate_of_arrow hclosure hopened))
        (fun hopened => harrow' (locate_of_arrow hclosure' hopened)) with
      ⟨hopened, hopened'⟩ | ⟨after, after', hopened, hopened', hafter⟩
    · have hunarrowed := harrow (locate_of_arrow hclosure hopened)
      have hunarrowed' := harrow' (locate_of_arrow hclosure' hopened')
      rw [locate_of_arrow hclosure hopened, locate_of_arrow hclosure' hopened']
      exact arrowExtent_veiled hquote hunarrowed hunarrowed' back
    · rw [locate_of_opened hclosure hopened, locate_of_opened hclosure' hopened']
      rcases cut?_of_veiled (onCode_isAt ')' 0) hafter with ⟨hnone, hnone'⟩ |
        ⟨inside, _, inside', _, hcut, hcut', hinside, _⟩
      · rw [hnone, hnone']
        exact .error _ _
      · rw [hcut, hcut']
        exact .ok (.list hinside.chars)
  · rw [locate_of_closure hlist, locate_of_closure hlist']
    exact .ok (.list hinside)

end

/-!
# What the list binds
-/

theorem trimStart_before_run {quote : Char} (hquote : isRunQuote quote = true)
    {one other front : List Char} (hfront : Sealed quote one other front) :
    exists kept, Sealed quote one other kept ∧ forall content back,
      Text.trimStart (front ++ (quoted quote content ++ back)) =
        kept ++ (quoted quote content ++ back) := by
  induction front with
  | nil =>
      exact ⟨[], hfront, fun _ _ => Text.trimStart_cons (isBlank_of_isRunQuote hquote) _⟩
  | cons c front ih =>
      cases hc : Text.isBlank c with
      | false =>
          exact ⟨c :: front, hfront, fun _ _ => Text.trimStart_cons hc _⟩
      | true =>
          -- A blank opens no run, so the scan is in code behind it.
          have hplain : forall rest, opensQuote c rest = false :=
            opensQuote_of_isPlain (isPlain_of_isBlank hc)
          have hsealed : Sealed quote one other front := by
            rcases hfront with ⟨hone, hother⟩
            simp only [Place.behind, Place.next, hplain] at hone hother
            exact ⟨hone, hother⟩
          rcases ih hsealed with ⟨kept, hkept, htrim⟩
          refine ⟨kept, hkept, fun content back => ?_⟩
          rw [← htrim content back]
          simp [Text.trimStart, hc]

theorem trim_veiled {quote : Char} (hquote : isRunQuote quote = true) {one other : List Char}
    {text text' : List Char} (h : Veiled quote one other text text') :
    Veiled quote one other (Text.trim text) (Text.trim text') := by
  cases h with
  | same =>
      exact .same _
  | @run front back hfront =>
      rcases trimStart_before_run hquote hfront with ⟨kept, hkept, htrim⟩
      have hend : forall content, Text.trimEnd (kept ++ (quoted quote content ++ back)) =
          kept ++ (quoted quote content ++ Text.trimEnd back) := by
        intro content
        have hclosing := Text.trimEnd_append_cons (isBlank_of_isRunQuote hquote)
          (kept ++ quote :: content) back
        simpa [quoted] using hclosing
      rw [Text.trim, Text.trim, htrim, htrim, hend, hend]
      exact .run hkept

theorem isEmpty_veiled {quote : Char} {one other text text' : List Char}
    (h : Veiled quote one other text text') : text.isEmpty = text'.isEmpty := by
  cases h with
  | same =>
      rfl
  | @run front =>
      cases front with
      | nil =>
          rfl
      | cons c front =>
          rfl

/-- Taking the modifiers off a head leaves every character that none of them has. -/
theorem mem_bound {c : Char} (hblank : Text.isBlank c = false) (hdots : c ∉ ['.', '.', '.'])
    (href : c ∉ ['r', 'e', 'f', ' ']) (hmut : c ∉ ['m', 'u', 't', ' ']) (hmark : c ≠ '?')
    {h : List Char} (hc : c ∈ h) : c ∈ bound h := by
  have hdrop : forall {word text : List Char}, c ∉ word -> c ∈ text ->
      c ∈ Text.trimStart (dropWord word text) := by
    intro word text hword htext
    rcases List.append_of_mem htext with ⟨front, rest, rfl⟩
    rcases stopsBefore_dropWord hword front with ⟨first, hfirst⟩
    rcases stopsBefore_trimStart hblank first with ⟨second, hsecond⟩
    rw [hfirst, hsecond]
    simp
  have hrest := hdrop hmut (hdrop href (hdrop hdots hc))
  unfold bound
  dsimp only
  split
  · rename_i hlast
    rcases List.getLast?_eq_some_iff.mp hlast with ⟨front, hfront⟩
    rw [hfront] at hrest ⊢
    rw [List.dropLast_concat]
    rcases List.mem_append.mp hrest with hmem | hmem
    · exact hmem
    · exact absurd (List.mem_singleton.mp hmem) hmark
  · exact hrest

/-- A head that holds a run binds no name. -/
theorem isIdentifier_bound_of_run {quote : Char} (hquote : isRunQuote quote = true)
    {content h : List Char} (hrun : quoted quote content <:+: h) :
    Text.isIdentifier (bound h) = false := by
  have hmem : quote ∈ h := hrun.subset (by simp [quoted])
  have hbound := mem_bound (isBlank_of_isRunQuote hquote) (not_mem_of_isRunQuote hquote rfl)
    (not_mem_of_isRunQuote hquote rfl) (not_mem_of_isRunQuote hquote rfl)
    (ne_of_isRunQuote hquote rfl) hmem
  cases hid : Text.isIdentifier (bound h) with
  | false =>
      rfl
  | true =>
      have hcontinues := Text.continuesIdentifier_of_mem hid hbound
      rw [continuesIdentifier_of_isRunQuote hquote] at hcontinues
      cases hcontinues

section

variable {quote : Char} {one other : List Char} (hquote : isRunQuote quote = true)
  (hone : staysQuoted quote false one = true) (hother : staysQuoted quote false other = true)
include hquote hone hother

/-- What is read off the marks of one text and of the other. -/
theorem read_veiled {α : Type} {R : α -> α -> Prop} {read : List Mark -> α}
    (hread : forall {marks marks'}, VeiledMarks quote one other marks marks' ->
      R (read marks) (read marks'))
    {text text' : List Char} (h : Veiled quote one other text text') (e e' : SignatureError) :
    Alike R
      (match scan .strict text with
        | some marks => Except.ok (read marks)
        | none => .error e)
      (match scan .strict text' with
        | some marks => Except.ok (read marks)
        | none => .error e') := by
  rcases scan_of_veiled hquote hone hother .strict h with ⟨hnone, hnone'⟩ |
    ⟨marks, marks', hmarks, hmarks', hveiled⟩
  · rw [hnone, hnone']
    exact .error _ _
  · rw [hmarks, hmarks']
    exact .ok (hread hveiled)

theorem pieces_veiled {list list' : List Char} (h : Veiled quote one other list list') :
    Alike (List.Forall₂ (Veiled quote one other)) (pieces list) (pieces list') := by
  apply read_veiled hquote hone hother _ h
  intro marks marks' hveiled
  exact List.rel_map (fun _ _ hpiece => hpiece.chars) (splitBy_veiled (onCode_isAt ',' 0) hveiled)

theorem head_veiled {piece piece' : List Char} (h : Veiled quote one other piece piece') :
    Alike (Veiled quote one other) (head piece) (head piece') := by
  have hstops : OnCode fun m => m.isAt ':' 0 || m.isAt '=' 0 := by
    intro m hm
    rcases Bool.or_eq_true_iff.mp hm with hm | hm
    · exact onCode_isAt ':' 0 m hm
    · exact onCode_isAt '=' 0 m hm
  apply read_veiled hquote hone hother _ h
  intro marks marks' hveiled
  exact trim_veiled hquote (takeWhile_veiled hstops hveiled).chars

end

/-- The heads of a list that are receivers. -/
def receivers (list : List Char) : List (List Char) :=
  match pieces list with
  | .ok parts =>
      (parts.filterMap fun piece => (head (Text.trim piece)).toOption).filter isReceiver
  | .error _ =>
      []

theorem mem_receivers {list h : List Char} {parts : List (List Char)} {piece : List Char}
    (hparts : pieces list = .ok parts) (hpiece : piece ∈ parts)
    (hhead : head (Text.trim piece) = .ok h) (hreceiver : isReceiver h = true) :
    h ∈ receivers list := by
  unfold receivers
  rw [hparts]
  apply List.mem_filter.mpr
  refine ⟨List.mem_filterMap.mpr ⟨piece, hpiece, ?_⟩, hreceiver⟩
  exact toOption_eq_some_iff.mpr hhead

theorem toOption_parameterName {piece h : List Char} (hhead : head piece = .ok h)
    (position : Nat) :
    (parameterName piece position).toOption =
      if isReceiver h then some none
      else if Text.isIdentifier (bound h) then some (some (bound h)) else none := by
  cases hreceiver : isReceiver h with
  | true =>
      rw [parameterName_of_receiver hhead hreceiver]
      rfl
  | false =>
      cases hname : Text.isIdentifier (bound h) with
      | true =>
          rw [parameterName_of_bound hhead hreceiver rfl hname]
          rfl
      | false =>
          simp [parameterName, hhead, hreceiver, hname, bind, Except.bind, throw, throwThe,
            MonadExceptOf.throw, Except.toOption]

section

variable {quote : Char} {one other : List Char} (hquote : isRunQuote quote = true)
  (hone : staysQuoted quote false one = true) (hother : staysQuoted quote false other = true)
include hquote hone hother

/-- A parameter binds what it bound, unless its head holds the run and is taken for a receiver
with one of the contents. -/
theorem parameterName_veiled {piece piece' : List Char} (h : Veiled quote one other piece piece')
    (hreceiver : forall hd, head piece = .ok hd -> isReceiver hd = true ->
      ¬ quoted quote one <:+: hd)
    (hreceiver' : forall hd, head piece' = .ok hd -> isReceiver hd = true ->
      ¬ quoted quote other <:+: hd)
    (position : Nat) :
    Alike Eq (parameterName piece position) (parameterName piece' position) := by
  rcases (head_veiled hquote hone hother h).error_or_ok with ⟨e, e', hhead, hhead'⟩ |
    ⟨hd, hd', hhead, hhead', hveiled⟩
  · have herror : forall {p err}, head p = .error err -> parameterName p position = .error err := by
      intro p err hp
      simp [parameterName, hp, bind, Except.bind]
    rw [herror hhead, herror hhead']
    exact .error e e'
  · apply Alike.of_toOption (fun _ => rfl)
    rw [toOption_parameterName hhead, toOption_parameterName hhead']
    cases hveiled with
    | same =>
        rfl
    | @run front back =>
        have hrun : forall content, quoted quote content <:+:
            front ++ (quoted quote content ++ back) :=
          fun content => ⟨front, back, List.append_assoc _ _ _⟩
        have hplain : isReceiver (front ++ (quoted quote one ++ back)) = false :=
          Bool.eq_false_iff.mpr fun h => hreceiver _ hhead h (hrun one)
        have hplain' : isReceiver (front ++ (quoted quote other ++ back)) = false :=
          Bool.eq_false_iff.mpr fun h => hreceiver' _ hhead' h (hrun other)
        rw [hplain, hplain', isIdentifier_bound_of_run hquote (hrun one),
          isIdentifier_bound_of_run hquote (hrun other)]
        rfl

theorem namesFrom_veiled {parts parts' : List (List Char)}
    (h : List.Forall₂ (Veiled quote one other) parts parts')
    (hreceiver : forall piece, piece ∈ parts -> forall hd, head (Text.trim piece) = .ok hd ->
      isReceiver hd = true -> ¬ quoted quote one <:+: hd)
    (hreceiver' : forall piece, piece ∈ parts' -> forall hd, head (Text.trim piece) = .ok hd ->
      isReceiver hd = true -> ¬ quoted quote other <:+: hd)
    (position : Nat) : Alike Eq (namesFrom position parts) (namesFrom position parts') := by
  induction h generalizing position with
  | nil =>
      exact .ok rfl
  | @cons piece piece' parts parts' hpiece hparts ih =>
      rcases List.forall_mem_cons.mp hreceiver with ⟨hfirst, hrest⟩
      rcases List.forall_mem_cons.mp hreceiver' with ⟨hfirst', hrest'⟩
      have htrim := trim_veiled hquote hpiece
      have hend : parts.isEmpty = parts'.isEmpty := by
        cases hparts with
        | nil =>
            rfl
        | cons =>
            rfl
      rw [namesFrom, namesFrom, isEmpty_veiled htrim, hend]
      split
      · exact .of_toOption (fun _ => rfl) rfl
      · apply Alike.bind (parameterName_veiled hquote hone hother htrim hfirst hfirst' position)
        rintro name _ rfl
        apply Alike.bind (ih hrest hrest' (position + 1))
        rintro names _ rfl
        exact .ok rfl

theorem listNames_veiled {list list' : List Char} (h : Veiled quote one other list list')
    (hreceiver : forall hd, hd ∈ receivers list -> ¬ quoted quote one <:+: hd)
    (hreceiver' : forall hd, hd ∈ receivers list' -> ¬ quoted quote other <:+: hd) :
    Alike Eq (listNames list) (listNames list') := by
  rcases (pieces_veiled hquote hone hother h).error_or_ok with ⟨e, e', hparts, hparts'⟩ |
    ⟨parts, parts', hparts, hparts', hveiled⟩
  · unfold listNames
    rw [hparts, hparts']
    exact .error e e'
  · unfold listNames
    rw [hparts, hparts']
    apply Alike.bind (namesFrom_veiled hquote hone hother hveiled
      (fun _ hpiece hd hhead hself => hreceiver hd (mem_receivers hparts hpiece hhead hself))
      (fun _ hpiece hd hhead hself => hreceiver' hd (mem_receivers hparts' hpiece hhead hself)) 0)
    rintro names _ rfl
    exact .of_toOption (fun _ => rfl) rfl

end

end Signature
end Contracts
