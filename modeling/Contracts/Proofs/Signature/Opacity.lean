import Contracts.Proofs.Signature.Veiled

/-!
# What a quoted run hides

A run can hold anything without quotes and backslashes, brackets, commas, bars and blanks among
it, and a declaration binds the same names.  Two kinds of runs are not hidden: one with the arrow
that a declaration is read by, and one in a receiver.  An arrow in the text of an attribute shows
that the first kind makes a difference.
-/

namespace Contracts
namespace Signature

/-- The quotes and the backslash. -/
def quoteMarks : List Char :=
  ['"', '\x60', '\'', '\\']

/-- Whether a text has neither quotes nor backslashes. -/
def isBare (text : List Char) : Bool :=
  text.all fun c => !quoteMarks.contains c

theorem isBare_cons_iff {c : Char} {text : List Char} :
    isBare (c :: text) = true <-> c ∉ quoteMarks ∧ isBare text = true := by
  simp [isBare]

section

variable {quote : Char} (hquote : isRunQuote quote = true)
include hquote

theorem mem_quoteMarks_of_isRunQuote : quote ∈ quoteMarks := by
  simp only [isRunQuote, Bool.or_eq_true, beq_iff_eq] at hquote
  rcases hquote with rfl | rfl
  · decide
  · decide

theorem staysQuoted_of_isBare {new : List Char} (hbare : isBare new = true) :
    staysQuoted quote false new = true := by
  induction new with
  | nil =>
      rfl
  | cons c new ih =>
      rcases isBare_cons_iff.mp hbare with ⟨hc, hnew⟩
      have hend : c ≠ quote := by
        rintro rfl
        exact hc (mem_quoteMarks_of_isRunQuote hquote)
      have hbackslash : (c == '\\') = false := by
        rw [beq_eq_false_iff_ne]
        rintro rfl
        exact hc (by decide)
      rw [staysQuoted, hbackslash, ih hnew, Bool.and_true]
      exact bne_iff_ne.mpr hend

/-- Before a bare run a single quote opens none of its own. -/
theorem opensQuote_bare {new : List Char} (hbare : isBare new = true) {c : Char}
    (hc : isRunQuote c = false) : opensQuote c (quoted quote new) = false := by
  have hfirst : (new ++ [quote]).head? ≠ some '\'' := by
    cases new with
    | nil =>
        simpa using ne_of_isRunQuote hquote rfl
    | cons d new =>
        intro hhead
        cases hhead
        exact (isBare_cons_iff.mp hbare).1 (by decide)
  have hbackslash : quote ≠ '\\' := ne_of_isRunQuote hquote rfl
  simp only [isRunQuote] at hc
  rw [opensQuote, hc, Bool.false_or, quoted, List.head?_cons, List.tail_cons,
    beq_eq_false_iff_ne.mpr hfirst]
  simp [hbackslash]

/-- Before a bare run a scan is in code wherever it is so before another one. -/
theorem behind_of_isBare {new : List Char} (hbare : isBare new = true) {place : Place}
    {front content : List Char} (h : place.behind front (quoted quote content) = .code) :
    place.behind front (quoted quote new) = .code := by
  induction front generalizing place with
  | nil =>
      exact h
  | cons c front ih =>
      have hnext : place.next c (front ++ quoted quote new) =
          place.next c (front ++ quoted quote content) := by
        match place, front with
        | .quoted _, _ =>
            rfl
        | .escaped _, _ =>
            rfl
        | .code, [_] =>
            rfl
        | .code, _ :: _ :: _ =>
            rfl
        | .code, [] =>
            have hclosed := opensQuote_eq_false_of_behind h
            have hc : isRunQuote c = false := by
              by_contra hopen
              rw [Bool.not_eq_false] at hopen
              rw [opensQuote_of_isRunQuote hopen] at hclosed
              cases hclosed
            simp only [Place.next, List.nil_append, hclosed, opensQuote_bare hquote hbare hc]
      rw [Place.behind, hnext]
      exact ih h

end

/-- A run of a text that a scan of the text passes over: it opens where the scan is in code, and
its first closing quote is at its end. -/
structure QuotedRun where
  front : List Char
  quote : Char
  content : List Char
  back : List Char
  isRunQuote_quote : isRunQuote quote = true
  opens : Place.code.behind front (quoted quote content ++ back) = .code
  closes : staysQuoted quote false content = true

namespace QuotedRun

def text (r : QuotedRun) : String :=
  String.ofList (r.front ++ (quoted r.quote r.content ++ r.back))

/-- The text with something else between the two quotes. -/
def refill (r : QuotedRun) (new : List Char) (hbare : isBare new = true) : QuotedRun :=
  { r with
    content := new
    opens := by
      have hopens := r.opens
      rw [behind_before_quoted] at hopens ⊢
      exact behind_of_isBare r.isRunQuote_quote hbare hopens
    closes := staysQuoted_of_isBare r.isRunQuote_quote hbare }

/-- Whether the parameters of the declaration are read by its first arrow, and this stands in
the run. -/
def HoldsArrow (r : QuotedRun) : Prop :=
  extent r.text.toList = arrowExtent r.text.toList ∧ beforeArrow? r.front = none ∧
    (beforeArrow? r.content).isSome = true

/-- Whether a receiver of the declaration holds the run. -/
def InReceiver (r : QuotedRun) : Prop :=
  exists list h, extent r.text.toList = .ok (.list list) ∧ h ∈ receivers list ∧
    quoted r.quote r.content <:+: h

theorem sealed_refill (r : QuotedRun) {new : List Char} (hbare : isBare new = true) :
    Sealed r.quote r.content new r.front := by
  have hopens := r.opens
  have hopens' := (r.refill new hbare).opens
  rw [behind_before_quoted] at hopens hopens'
  exact ⟨hopens, hopens'⟩

theorem unarrowed_of_not_holdsArrow {r : QuotedRun} (h : ¬ r.HoldsArrow)
    (hextent : extent r.text.toList = arrowExtent r.text.toList) :
    Unarrowed r.front r.content := by
  cases hfront : beforeArrow? r.front with
  | some before =>
      exact Or.inl (by rw [hfront]; rfl)
  | none =>
      right
      cases hcontent : beforeArrow? r.content with
      | none =>
          rfl
      | some before =>
          exact absurd ⟨hextent, hfront, by rw [hcontent]; rfl⟩ h

end QuotedRun

/-- What a quoted run holds is not looked at: with other characters between its quotes, neither
quotes nor backslashes, a declaration binds the same names, or still cannot be read.  Two kinds
of runs are excepted, of which the contents are read after all. -/
theorem parameterNames_refill (r : QuotedRun) {new : List Char} (hbare : isBare new = true)
    (harrow : ¬ r.HoldsArrow) (harrow' : ¬ (r.refill new hbare).HoldsArrow)
    (hreceiver : ¬ r.InReceiver) (hreceiver' : ¬ (r.refill new hbare).InReceiver) :
    (parameterNames (r.refill new hbare).text).toOption = (parameterNames r.text).toOption := by
  have htext : r.text.toList = r.front ++ (quoted r.quote r.content ++ r.back) :=
    String.toList_ofList
  have htext' : (r.refill new hbare).text.toList = r.front ++ (quoted r.quote new ++ r.back) :=
    String.toList_ofList
  have hunarrowed := QuotedRun.unarrowed_of_not_holdsArrow harrow
  have hunarrowed' := QuotedRun.unarrowed_of_not_holdsArrow harrow'
  rw [htext] at hunarrowed
  rw [htext'] at hunarrowed'
  have hextent := extent_veiled r.isRunQuote_quote r.closes
    (staysQuoted_of_isBare r.isRunQuote_quote hbare) (r.sealed_refill hbare) hunarrowed hunarrowed'
  rw [← htext, ← htext'] at hextent
  rw [parameterNames_eq_bind, parameterNames_eq_bind]
  rcases hextent.error_or_ok with ⟨e, e', he, he'⟩ | ⟨e, e', he, he', hsame⟩
  · rw [he, he']
    rfl
  · rw [he, he']
    cases hsame with
    | same =>
        rfl
    | @list list list' hlist =>
        have hnames := listNames_veiled r.isRunQuote_quote r.closes
          (staysQuoted_of_isBare r.isRunQuote_quote hbare) hlist
          (fun h hmem hrun => hreceiver ⟨list, h, he, hmem, hrun⟩)
          (fun h hmem hrun => hreceiver' ⟨list', h, he', hmem, hrun⟩)
        exact hnames.toOption_eq.symm

/-- A default that holds a closing bracket, a comma and an opening one. -/
def bracketedDefault : QuotedRun where
  front := "function f(a = ".toList
  quote := '"'
  content := "),(".toList
  back := ", b)".toList
  isRunQuote_quote := rfl
  opens := rfl
  closes := rfl

/-- With an unmatched bracket, an arrow and a bar in it instead it stays a default. -/
theorem parameterNames_refill_bracketedDefault :
    exists hbare : isBare "] => |x".toList = true,
      ¬ bracketedDefault.HoldsArrow ∧
      ¬ (bracketedDefault.refill "] => |x".toList hbare).HoldsArrow ∧
      ¬ bracketedDefault.InReceiver ∧
      ¬ (bracketedDefault.refill "] => |x".toList hbare).InReceiver ∧
      (parameterNames (bracketedDefault.refill "] => |x".toList hbare).text).toOption =
        (parameterNames bracketedDefault.text).toOption ∧
      parameterNames bracketedDefault.text = .ok ["a", "b"] := by
  have hbare : isBare "] => |x".toList = true := rfl
  have hextent : extent bracketedDefault.text.toList =
      .ok (.list "a = \"),(\", b".toList) := rfl
  have htext : (bracketedDefault.refill "] => |x".toList hbare).text.toList =
      "function f(a = \"] => |x\", b)".toList := rfl
  have hextent' : extent "function f(a = \"] => |x\", b)".toList =
      .ok (.list "a = \"] => |x\", b".toList) := rfl
  have hunread : extent "function f(a = \"] => |x\", b)".toList ≠
      arrowExtent "function f(a = \"] => |x\", b)".toList := by decide
  have hnone : receivers "a = \"),(\", b".toList = [] := rfl
  have hnone' : receivers "a = \"] => |x\", b".toList = [] := rfl
  have harrow : ¬ bracketedDefault.HoldsArrow := by
    rintro ⟨_, _, hcontent⟩
    exact absurd hcontent (by decide)
  have harrow' : ¬ (bracketedDefault.refill "] => |x".toList hbare).HoldsArrow := by
    rintro ⟨hread, _, _⟩
    rw [htext] at hread
    exact hunread hread
  have hreceiver : ¬ bracketedDefault.InReceiver := by
    rintro ⟨list, h, hlist, hmem, _⟩
    rw [hextent] at hlist
    cases hlist
    rw [hnone] at hmem
    cases hmem
  have hreceiver' : ¬ (bracketedDefault.refill "] => |x".toList hbare).InReceiver := by
    rintro ⟨list, h, hlist, hmem, _⟩
    rw [htext, hextent'] at hlist
    cases hlist
    rw [hnone'] at hmem
    cases hmem
  exact ⟨hbare, harrow, harrow', hreceiver, hreceiver',
    parameterNames_refill bracketedDefault hbare harrow harrow' hreceiver hreceiver', rfl⟩

/-- The text of an attribute in front of a function. -/
def attributeText : QuotedRun where
  front := "#[doc = ".toList
  quote := '"'
  content := "text".toList
  back := "] fn f(a: u8)".toList
  isRunQuote_quote := rfl
  opens := rfl
  closes := rfl

/-- With an arrow in the text of the attribute the declaration of one name is read as that of
another. -/
theorem parameterNames_refill_attributeText :
    exists hbare : isBare "maps n => n".toList = true,
      parameterNames attributeText.text = .ok ["a"] ∧
      parameterNames (attributeText.refill "maps n => n".toList hbare).text = .ok ["n"] :=
  ⟨rfl, rfl, rfl⟩

/-- The words of a receiver are read with the run in them: a blank in it makes two words of one. -/
example : parameterNames "f(\x27\"ab\" self)" = .ok [] ∧
    (parameterNames "f(\x27\"a b\" self)").toOption = none :=
  ⟨rfl, rfl⟩

end Signature
end Contracts
