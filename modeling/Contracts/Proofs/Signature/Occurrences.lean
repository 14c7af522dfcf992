import Contracts.Proofs.Bindings.Positions
import Contracts.Proofs.Signature.Slices

/-!
# Where the names stand

The names that are read from a declaration are identifiers, they are distinct, and they stand in
its text one after another.  Every step of the reading keeps the order: the list is a part of the
text, its pieces follow each other with commas between them, and a name is a part of its piece.
So the places of the names in their pieces become places in the text, whatever the text is.
-/

namespace Contracts
namespace Signature

open String (utf8Len)
open Text (slice?)

/-!
# Words in order
-/

/-- Words that stand in a text one after another and do not overlap. -/
inductive InOrder : List (List Char) -> List Char -> Prop where
  | nil (text : List Char) : InOrder [] text
  | cons {word : List Char} {words : List (List Char)} (front : List Char) {back : List Char}
      (h : InOrder words back) : InOrder (word :: words) (front ++ (word ++ back))

theorem InOrder.behind {words : List (List Char)} {text : List Char} (h : InOrder words text)
    (front : List Char) : InOrder words (front ++ text) := by
  cases h with
  | nil =>
      exact .nil _
  | cons between hback =>
      rw [← List.append_assoc]
      exact .cons (front ++ between) hback

theorem InOrder.append {words more : List (List Char)} {text rest : List Char}
    (h : InOrder words text) (hmore : InOrder more rest) :
    InOrder (words ++ more) (text ++ rest) := by
  induction h with
  | nil text =>
      exact hmore.behind text
  | cons front hback ih =>
      rw [List.append_assoc, List.append_assoc]
      exact .cons front ih

theorem InOrder.inside {words : List (List Char)} {text whole : List Char}
    (h : InOrder words text) (hpart : text <:+: whole) : InOrder words whole := by
  rcases hpart with ⟨front, back, rfl⟩
  have hwhole := (h.behind front).append (.nil back)
  rw [List.append_nil] at hwhole
  exact hwhole

theorem inOrder_of_part {word text : List Char} (h : word <:+: text) : InOrder [word] text := by
  rcases h with ⟨front, back, rfl⟩
  rw [List.append_assoc]
  exact .cons front (.nil back)

/-- Words in order are slices of the text, each of which stops before the next one begins. -/
theorem exists_slices_of_inOrder {words : List (List Char)} {text : List Char}
    (h : InOrder words text) :
    forall passed : List Char, exists spans : List (Nat × Nat),
      List.Forall₂ (fun span word => slice? (passed ++ text) span.1 span.2 = some word)
        spans words ∧
      (spans.Pairwise fun one next => one.2 ≤ next.1) ∧
      forall span, span ∈ spans -> utf8Len passed ≤ span.1 := by
  induction h with
  | nil text =>
      intro passed
      exact ⟨[], .nil, .nil, nofun⟩
  | @cons word words front back hback ih =>
      intro passed
      rcases ih (passed ++ (front ++ word)) with ⟨spans, hslices, hordered, hbehind⟩
      have htext : passed ++ (front ++ (word ++ back)) = passed ++ (front ++ word) ++ back := by
        simp
      have hslice := Text.slice?_append (passed ++ front) word back
      rw [List.append_assoc passed front (word ++ back),
        List.append_assoc passed front word] at hslice
      refine ⟨(utf8Len (passed ++ front), utf8Len (passed ++ (front ++ word))) :: spans,
        .cons hslice (htext ▸ hslices), List.pairwise_cons.mpr ⟨?_, hordered⟩, ?_⟩
      · intro span hspan
        exact hbehind span hspan
      · rw [List.forall_mem_cons]
        refine ⟨by simp, ?_⟩
        intro span hspan
        have hle := hbehind span hspan
        rw [String.utf8Len_append] at hle
        omega

/-!
# From the pieces to the list
-/

theorem infix_dropWord (word text : List Char) : dropWord word text <:+: text := by
  unfold dropWord
  split
  · exact (List.drop_suffix _ _).isInfix
  · exact List.infix_rfl

theorem infix_bound (h : List Char) : bound h <:+: h := by
  have hword : forall word text : List Char, Text.trimStart (dropWord word text) <:+: text :=
    fun word text => (List.dropWhile_suffix _).isInfix.trans (infix_dropWord word text)
  have hrest := (hword ['m', 'u', 't', ' '] _).trans
    ((hword ['r', 'e', 'f', ' '] _).trans (hword ['.', '.', '.'] h))
  unfold bound
  dsimp only
  split
  · exact (List.dropLast_prefix _).isInfix.trans hrest
  · exact hrest

theorem infix_head {piece h : List Char} (hhead : head piece = .ok h) : h <:+: piece := by
  unfold head at hhead
  split at hhead
  · rename_i marks hmarks
    cases hhead
    have hfront : chars (marks.takeWhile fun m => !(m.isAt ':' 0 || m.isAt '=' 0)) <+:
        chars marks := (List.takeWhile_prefix _).map Mark.char
    rw [chars_scan hmarks] at hfront
    exact (Text.infix_trim _).trans hfront.isInfix
  · cases hhead

theorem inOrder_of_parameterName {piece : List Char} {position : Nat} {name? : Option (List Char)}
    (h : parameterName piece position = .ok name?) : InOrder name?.toList piece := by
  rcases exists_of_bind_eq_ok h with ⟨front, hhead, hname⟩
  split at hname
  · cases hname
    exact .nil piece
  · split at hname
    · cases hname
      exact inOrder_of_part ((infix_bound front).trans (infix_head hhead))
    · cases hname

/-- The names of pieces stand in order in the list that joins the pieces by commas. -/
theorem inOrder_of_namesFrom {parts : List (List Char)} :
    forall {position : Nat} {names : List (List Char)}, namesFrom position parts = .ok names ->
      InOrder names ([','].intercalate parts) := by
  induction parts with
  | nil =>
      intro position names h
      cases h
      exact .nil _
  | cons piece rest ih =>
      intro position names h
      rw [namesFrom] at h
      split at h
      · split at h
        · cases h
          exact .nil _
        · cases h
      · rcases exists_of_bind_eq_ok h with ⟨name?, hname, htail⟩
        rcases exists_of_bind_eq_ok htail with ⟨others, hothers, hnames⟩
        cases hnames
        have hpiece := (inOrder_of_parameterName hname).inside (Text.infix_trim piece)
        have hrest := ih hothers
        cases rest with
        | nil =>
            cases hothers
            rw [List.append_nil, List.intercalate_singleton]
            exact hpiece
        | cons next rest =>
            rw [List.intercalate_cons_cons, List.append_assoc]
            exact hpiece.append (hrest.behind [','])

theorem chars_intercalate (m : Mark) (parts : List (List Mark)) :
    chars ([m].intercalate parts) = [m.char].intercalate (parts.map chars) := by
  induction parts with
  | nil =>
      rfl
  | cons part rest ih =>
      cases rest with
      | nil =>
          rw [List.intercalate_singleton, List.map_singleton, List.intercalate_singleton]
      | cons next rest =>
          rw [List.map_cons] at ih
          rw [List.intercalate_cons_cons, List.map_cons, List.map_cons,
            List.intercalate_cons_cons, ← ih, chars_append, chars_append]
          rfl

/-- The pieces of a list, joined by commas, are the list. -/
theorem intercalate_of_pieces {list : List Char} {parts : List (List Char)}
    (h : pieces list = .ok parts) : [','].intercalate parts = list := by
  unfold pieces at h
  split at h
  · rename_i marks hmarks
    cases h
    have hcomma : forall m, Mark.isAt ',' 0 m = true -> m = ⟨',', some 0⟩ :=
      fun m hm => isAt_iff.mp hm
    rw [← chars_scan hmarks, ← chars_intercalate ⟨',', some 0⟩,
      Text.intercalate_splitBy hcomma]
  · cases h

theorem inOrder_of_listNames {list : List Char} {names : List String}
    (h : listNames list = .ok names) : InOrder (names.map String.toList) list := by
  rcases exists_of_bind_eq_ok h with ⟨parts, hparts, hnames⟩
  rcases exists_of_bind_eq_ok hnames with ⟨texts, htexts, hvalid⟩
  have horder := inOrder_of_namesFrom htexts
  rw [intercalate_of_pieces hparts] at horder
  have hnames : names.map String.toList = texts := by
    rw [(validateFrom_of_validate hvalid).1, List.map_map]
    simp
  rw [hnames]
  exact horder

/-!
# From the list to the text
-/

theorem infix_of_slice? {text piece : List Char} {start stop : Nat}
    (h : slice? text start stop = some piece) : piece <:+: text := by
  rcases Text.slice?_eq_some_iff.mp h with ⟨front, back, rfl, _, _⟩
  exact ⟨front, back, List.append_assoc front piece back⟩

/-- Whether what is found in a text is a part of it, and an identifier if it is a name. -/
def Extent.Within (text : List Char) : Extent -> Prop
  | list inside =>
      inside <:+: text
  | single name =>
      name <:+: text ∧ Text.isIdentifier name = true

theorem within_of_arrowExtent {text : List Char} {e : Extent} (h : arrowExtent text = .ok e) :
    e.Within text := by
  unfold arrowExtent at h
  split at h
  · rename_i before hbefore
    unfold arrowParameter at h
    split at h
    · rename_i name hname
      split at h
      · rename_i hidentifier
        cases h
        rcases exists_of_beforeArrow? hbefore with ⟨rest, rfl⟩
        have hword := Text.infix_of_mem_words (List.mem_of_getLast? hname)
        exact ⟨hword.trans (List.prefix_append before _).isInfix, hidentifier⟩
      · cases h
    · cases h
  · cases h

theorem within_of_extent {text : List Char} {e : Extent} (h : extent text = .ok e) :
    e.Within text := by
  cases hscan : scan .lenient text with
  | none =>
      rw [extent_of_scan_none hscan] at h
      cases h
  | some marks =>
      have hchars := chars_scan hscan
      rw [extent_of_scan hscan] at h
      cases hlist : closureList? text marks with
      | some list =>
          rw [locate_of_closure hlist] at h
          cases h
          have hclosure := closureRange?_eq hchars
          rw [hlist] at hclosure
          rcases Option.map_eq_some_iff.mp hclosure with ⟨range, _, hslice⟩
          exact infix_of_slice? hslice
      | none =>
          cases hopened : opened? marks with
          | none =>
              rw [locate_of_arrow hlist hopened] at h
              exact within_of_arrowExtent h
          | some after =>
              rw [locate_of_opened hlist hopened] at h
              split at h
              · rename_i inside rest hclosing
                cases h
                rcases exists_cut_of_opened? hopened with ⟨before, hopening⟩
                have hslice := slice?_of_cuts (by decide) hopening hclosing
                rw [hchars] at hslice
                exact infix_of_slice? hslice
              · cases h

/-!
# The names
-/

theorem inOrder_of_parameterNames {text : String} {names : List String}
    (h : parameterNames text = .ok names) :
    InOrder (names.map String.toList) text.toList := by
  rw [parameterNames_eq_bind] at h
  rcases exists_of_bind_eq_ok h with ⟨e, hextent, hnames⟩
  have hwithin := within_of_extent hextent
  cases e with
  | list list =>
      exact (inOrder_of_listNames hnames).inside hwithin
  | single name =>
      cases hnames
      rw [List.map_singleton, String.toList_ofList]
      exact inOrder_of_part hwithin.1

theorem isIdentifier_of_parameterNames {text : String} {names : List String}
    (h : parameterNames text = .ok names) :
    forall name, name ∈ names -> Text.isIdentifier name.toList = true := by
  rw [parameterNames_eq_bind] at h
  rcases exists_of_bind_eq_ok h with ⟨e, hextent, hnames⟩
  have hwithin := within_of_extent hextent
  cases e with
  | list list =>
      rcases exists_of_bind_eq_ok hnames with ⟨parts, _, hparts⟩
      rcases exists_of_bind_eq_ok hparts with ⟨texts, _, htexts⟩
      rcases validateFrom_of_validate htexts with ⟨rfl, hvalid⟩
      exact isIdentifier_of_validateFrom hvalid
  | single name =>
      cases hnames
      intro n hn
      rw [List.mem_singleton.mp hn, String.toList_ofList]
      exact hwithin.2

/-- Whatever the text of a declaration is, no slice that its reading takes is out of range or
cuts a character; and the names that it gives are distinct identifiers that stand in the text in
their order, each before the next one begins. -/
theorem parameterNames_sound (text : String) :
    (slicedNames text).run = some (parameterNames text) ∧
    forall names, parameterNames text = .ok names ->
      (forall name, name ∈ names -> Text.isIdentifier name.toList = true) ∧ names.Nodup ∧
      exists spans : List (Nat × Nat),
        List.Forall₂ (fun span (name : String) =>
          slice? text.toList span.1 span.2 = some name.toList) spans names ∧
        spans.Pairwise fun one next => one.2 ≤ next.1 := by
  constructor
  · rw [slicedNames_eq]
    rfl
  · intro names hnames
    rcases exists_slices_of_inOrder (inOrder_of_parameterNames hnames) [] with
      ⟨spans, hslices, hordered, _⟩
    rw [List.forall₂_map_right_iff, List.nil_append] at hslices
    exact ⟨isIdentifier_of_parameterNames hnames, nodup_of_parameterNames hnames, spans, hslices,
      hordered⟩

/-- Two names of several bytes, one of them behind a modifier, and a comment and a default with
characters that take more than one byte. -/
theorem parameterNames_sound_manyBytes :
    parameterNames "/* größe → */ fn f(mut é: u8, naïve = \"日\")" = .ok ["é", "naïve"] ∧
    (slicedNames "/* größe → */ fn f(mut é: u8, naïve = \"日\")").run =
      some (.ok ["é", "naïve"]) ∧
    exists spans : List (Nat × Nat),
      List.Forall₂ (fun span (name : String) =>
        slice? "/* größe → */ fn f(mut é: u8, naïve = \"日\")".toList span.1 span.2 =
          some name.toList) spans ["é", "naïve"] ∧
      spans.Pairwise fun one next => one.2 ≤ next.1 := by
  have hnames :
      parameterNames "/* größe → */ fn f(mut é: u8, naïve = \"日\")" = .ok ["é", "naïve"] := rfl
  rcases parameterNames_sound "/* größe → */ fn f(mut é: u8, naïve = \"日\")" with
    ⟨hslices, hsound⟩
  rw [hnames] at hslices
  exact ⟨hnames, hslices, (hsound _ hnames).2.2⟩

end Signature
end Contracts
