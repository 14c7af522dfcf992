import Contracts.CommandLine.Run
import Contracts.Proofs.Bindings.Positions
import Contracts.Proofs.Session.Verification
import Contracts.Proofs.Value.Equality
import Contracts.Proofs.Value.Handles

/-!
# Identity in scripts

A script that was loaded has arrays and objects of its own, and in every step those of the target
are not those of the arguments.  So a step finds an array or object equal to its target only where
a parameter holds a part of the script itself.  Whoever has an array or object in hand, on the
other hand, finds it again: every assertion over it holds the thing itself and not a copy.
-/

namespace Contracts

/-! ## Handles of scripts -/

namespace Step

def argumentHandles (step : Step Value) : List Handle :=
  (step.enforce.getD []).flatMap Value.handles

def targetHandles (step : Step Value) : List Handle :=
  step.against.toList.flatMap Value.handles

/-- The arrays and objects of a step. -/
def handles (step : Step Value) : List Handle :=
  step.argumentHandles ++ step.targetHandles

/-- Whether the target of a step has no array or object of its arguments. -/
def Separate (step : Step Value) : Prop :=
  forall handle, handle ∈ step.argumentHandles -> handle ∉ step.targetHandles

section

variable (step : Step Json) (s : Supply)

/-- The arguments of a step are loaded before its target. -/
theorem gives_load : exists mid,
    Supply.Gives s mid (step.mapM Value.ofJson s).1.argumentHandles ∧
    Supply.Gives mid (step.mapM Value.ofJson s).2 (step.mapM Value.ofJson s).1.targetHandles := by
  obtain ⟨param, enforce, check, against, negate⟩ := step
  refine ⟨(enforce.mapM (fun args => args.mapM Value.ofJson) s).2, ?_, ?_⟩
  · show Supply.Gives s _ (((enforce.mapM (fun args => args.mapM Value.ofJson) s).1.getD []).flatMap
      Value.handles)
    cases enforce with
    | none =>
        exact Supply.gives_nil s
    | some args =>
        exact Supply.gives_mapM Value.handles args (fun json _ => Value.gives_ofJson json) s
  · exact Supply.gives_optionMapM Value.handles against (fun json _ => Value.gives_ofJson json) _

theorem gives_handles_load :
    Supply.Gives s (step.mapM Value.ofJson s).2 (step.mapM Value.ofJson s).1.handles := by
  rcases step.gives_load s with ⟨mid, harguments, htarget⟩
  exact Supply.gives_append harguments htarget

theorem separate_load : (step.mapM Value.ofJson s).1.Separate := by
  rcases step.gives_load s with ⟨mid, harguments, htarget⟩
  exact fun _ => Supply.not_mem_of_gives harguments htarget

end

end Step

theorem Fresh.forall_mapM {α β : Type} {f : α -> Fresh β} {P : β -> Prop} {xs : List α}
    (hf : forall x, x ∈ xs -> forall s, P (f x s).1) (s : Supply) :
    forall y, y ∈ (xs.mapM f s).1 -> P y := by
  induction xs generalizing s with
  | nil =>
      nofun
  | cons x xs ih =>
      rcases List.forall_mem_cons.mp hf with ⟨hx, hxs⟩
      rw [mapM_cons]
      exact List.forall_mem_cons.mpr ⟨hx s, ih hxs _⟩

namespace Script

/-- The arrays and objects of a script. -/
def handles (script : Script Value) : List Handle :=
  script.policy.toList.flatMap Value.handles ++ script.checks.flatMap Step.handles

theorem mem_handles_of_target {script : Script Value} {step : Step Value}
    (hstep : step ∈ script.checks) {handle : Handle} (h : handle ∈ step.targetHandles) :
    handle ∈ script.handles :=
  List.mem_append_right _
    (List.mem_flatMap.mpr ⟨step, hstep, List.mem_append_right _ h⟩)

/-- The arrays and objects of a script that is loaded are all new. -/
theorem gives_load (document : Script Json) (s : Supply) :
    Supply.Gives s (document.load s).2 (document.load s).1.handles := by
  obtain ⟨policy, checks⟩ := document
  have hpolicy := Supply.gives_optionMapM Value.handles policy
    (fun json _ => Value.gives_ofJson json) s
  have hchecks := Supply.gives_mapM Step.handles checks
    (fun step _ => step.gives_handles_load) (policy.mapM Value.ofJson s).2
  exact Supply.gives_append hpolicy hchecks

theorem separate_of_mem_load (document : Script Json) (s : Supply) :
    forall step, step ∈ (document.load s).1.checks -> step.Separate := by
  obtain ⟨policy, checks⟩ := document
  exact Fresh.forall_mapM (fun step _ s => step.separate_load s) (policy.mapM Value.ofJson s).2

end Script

/-! ## What a step checks -/

theorem Assertion.value_mem_of_ofArguments {args : List Value} {a : Assertion}
    (h : Assertion.ofArguments args = .ok a) : a.value ∈ args := by
  match args with
  | [] =>
      cases h
  | [value] =>
      cases h
      exact List.mem_singleton_self _
  | description :: value :: rest =>
      cases h
      exact List.mem_cons_of_mem _ List.mem_cons_self

theorem Bindings.value_of_param {names : List String} {args : List Value} {name : String}
    {a : Assertion} (h : (ofArguments names args).param name = .ok a) :
    a.value ∈ args ∨ a.value = .missing := by
  by_cases hname : name ∈ names
  · rcases exists_lastAt hname with ⟨i, hi⟩
    rw [param_of_lastAt args hi] at h
    cases h
    show args[i]?.getD .missing ∈ args ∨ args[i]?.getD .missing = .missing
    cases harg : args[i]? with
    | none =>
        exact Or.inr rfl
    | some v =>
        exact Or.inl (List.mem_of_getElem? harg)
  · rw [param_of_not_mem (mt (mem_names_ofArguments names args name).mp hname)] at h
    cases h

namespace Report

/-- Whether a check for equality of an array or object, or for the opposite, found a difference. -/
def TellsApart (r : Report) : Prop :=
  r.value.isComposite = true ->
    (r.id = "equals" -> r.pass = false) ∧ (r.id = "not equals" -> r.pass = true)

theorem tellsApart_of_attests {r : Report} {a : Assertion} {p : Predicate} {negated : Bool}
    {against : Option Value} (h : r.Attests a p negated against)
    (hapart : forall handle, handle ∈ a.value.handles ->
      handle ∉ against.toList.flatMap Value.handles) : r.TellsApart := by
  intro hcomposite
  have hdiffers : Predicate.equals.test r.value r.against = false := by
    rw [h.value] at hcomposite ⊢
    rw [h.against]
    show a.value.strictEquals (against.getD .missing) = false
    rw [← Bool.not_eq_true]
    intro hequals
    rcases Value.exists_handle_of_strictEquals hcomposite hequals with ⟨handle, hvalue, htarget⟩
    apply hapart handle hvalue
    cases against with
    | none =>
        cases htarget
    | some target =>
        exact List.mem_flatMap.mpr ⟨target, List.mem_singleton_self _, htarget⟩
  -- The id of a report tells the predicate, so only checks for equality are left.
  have hid : forall q opposite, r.id = Predicate.reportId q opposite ->
      p = q ∧ negated = opposite := by
    intro q opposite hq
    have hread := Predicate.ofReportId?_reportId p negated
    rw [← h.id, hq, Predicate.ofReportId?_reportId] at hread
    cases hread
    exact ⟨rfl, rfl⟩
  constructor
  · intro hequals
    rcases hid .equals false hequals with ⟨rfl, rfl⟩
    rw [h.pass, hdiffers]
    rfl
  · intro hequals
    rcases hid .equals true hequals with ⟨rfl, rfl⟩
    rw [h.pass, hdiffers]
    rfl

end Report

/-- A script whose steps keep arguments and targets apart tells them apart, and its parameters
too where they hold none of its targets. -/
theorem Script.recordsOnly_tellsApart {script : Script Value}
    (hseparate : forall step, step ∈ script.checks -> step.Separate) {names : List String}
    {args : List Value}
    (hargs : forall v, v ∈ args -> forall handle, handle ∈ v.handles -> handle ∉ script.handles) :
    Session.RecordsOnly Report.TellsApart (script.apply (Bindings.ofArguments names args)) := by
  intro s
  rcases script.accounts_apply (Bindings.ofArguments names args) [] s with ⟨rs, haccounts, hleft⟩
  refine ⟨rs, hleft, ?_⟩
  intro r hr
  cases haccounts with
  | @apply _ _ before after _ hsplit hbefore _ =>
      rcases exists_step_of_mem hbefore hr with ⟨step, hmem, a, p, hchecks, _, hattests⟩
      have hstep : step ∈ script.checks := by
        rw [hsplit]
        exact List.mem_append_left after hmem
      apply Report.tellsApart_of_attests hattests
      intro handle hvalue htarget
      cases hchecks with
      | param hparam hbound =>
          rcases Bindings.value_of_param hbound with harg | hmissing
          · exact hargs a.value harg handle hvalue (mem_handles_of_target hstep htarget)
          · rw [hmissing] at hvalue
            cases hvalue
      | @enforce list _ hparam henforce hlist =>
          apply hseparate step hstep handle _ htarget
          unfold Step.argumentHandles
          rw [henforce]
          exact List.mem_flatMap.mpr ⟨a.value, Assertion.value_mem_of_ofArguments hlist, hvalue⟩

theorem CommandLine.gives_readArgument (text : String) (s : Supply) :
    Supply.Gives s (readArgument text s).2 (readArgument text s).1.handles := by
  unfold readArgument
  cases Json.read text with
  | ok json =>
      exact Value.gives_ofJson json s
  | error e =>
      exact Supply.gives_nil s

/-- The arguments of a command are read behind its script and share nothing with it. -/
theorem CommandLine.recordsOnly_tellsApart (document : Script Json) (s : Supply)
    (names texts : List String) :
    Session.RecordsOnly Report.TellsApart ((document.load s).1.apply
      (Bindings.ofArguments names (texts.mapM readArgument (document.load s).2).1)) := by
  have hvalues := Supply.gives_mapM Value.handles texts
    (fun text _ => gives_readArgument text) (document.load s).2
  apply Script.recordsOnly_tellsApart (Script.separate_of_mem_load document s)
  intro v hv handle hvalue hscript
  exact Supply.not_mem_of_gives (Script.gives_load document s) hvalues hscript
    (List.mem_flatMap.mpr ⟨v, hv, hvalue⟩)

/-! ## Assertions over a value in hand -/

/-- The ways in which a specification builds an assertion over a value that is in hand: over the
value itself, under a name, over the list of arguments that it ends, and over a parameter at whose
last position it was passed. -/
inductive Target.Captures (names : List String) (args : List Value) (v : Value) : Target -> Prop
    where
  | value : Captures names args v (.value v)
  | named (name : String) : Captures names args v (.named name v)
  | single : Captures names args v (.arguments [v])
  | described (description : Value) (rest : List Value) :
      Captures names args v (.arguments (description :: v :: rest))
  | param {name : String} {i : Nat} (hlast : LastAt names name i) (harg : args[i]? = some v) :
      Captures names args v (.param name)
  | index {name : String} {i : Nat} (hlast : LastAt names name i) (harg : args[i]? = some v) :
      Captures names args v (.index name)

theorem Target.assertion_of_captures {names : List String} {args : List Value} {v : Value}
    {target : Target} (h : target.Captures names args v) (s : Session) :
    exists a, target.assertion (Bindings.ofArguments names args) s = .ok a s ∧
      a.value = v ∧ a.negated = false := by
  cases h with
  | value =>
      exact ⟨_, rfl, rfl, rfl⟩
  | named name =>
      exact ⟨_, rfl, rfl, rfl⟩
  | single =>
      exact ⟨_, rfl, rfl, rfl⟩
  | described description rest =>
      exact ⟨_, rfl, rfl, rfl⟩
  | param hlast harg =>
      unfold assertion
      simp only [Bindings.param_of_lastAt args hlast, harg, Option.getD_some]
      exact ⟨_, rfl, rfl, rfl⟩
  | index hlast harg =>
      unfold assertion
      simp only [Bindings.index_of_lastAt args hlast, harg, Option.getD_some]
      exact ⟨_, rfl, rfl, rfl⟩

/-- Whether the values of an assertion and of its negation both pass the test of equality with some
value: the assertion reports that, and its negation the complement. -/
structure Assertion.Finds (a : Assertion) (v : Value) : Prop where
  passes : Predicate.equals.test a.value (some v) = true
  negation_passes : Predicate.equals.test a.negation.value (some v) = true
  equals : forall s, exists r, a.equals v s = .ok () (s.push r) ∧
    r.id = "equals" ∧ r.pass = true ∧ r.value.strictEquals v = true
  negation : forall s, exists r, Session.left (a.negation.equals v s) = s.push r ∧
    r.id = "not equals" ∧ r.pass = false ∧ r.value.strictEquals v = true

theorem Assertion.finds_of_composite {a : Assertion} {v : Value} (hv : v.isComposite = true)
    (hvalue : a.value = v) (hnegated : a.negated = false) : a.Finds v := by
  have hsame : v.strictEquals v = true := by
    rw [Value.strictEquals_self_iff]
    rintro rfl
    cases hv
  have htest : Predicate.equals.test v (some v) = true := hsame
  have hattests := a.attests_report .equals (some v)
  have hattests' := a.negation.attests_report .equals (some v)
  rw [hnegated] at hattests
  rw [negated_negation] at hattests'
  refine ⟨?_, ?_, ?_, ?_⟩
  · rw [hvalue]
    exact htest
  · rw [value_negation, hvalue]
    exact htest
  · intro s
    have hpass : (a.report .equals (some v)).pass = true := by
      rw [hattests.pass, hattests.value, hattests.against, hvalue, htest]
      rfl
    refine ⟨_, Episode.record_of_pass _ hpass s, hattests.id, hpass, ?_⟩
    rw [hattests.value, hvalue]
    exact hsame
  · intro s
    have hfail : (a.negation.report .equals (some v)).pass = false := by
      rw [hattests'.pass, hattests'.value, hattests'.against, value_negation, hvalue, htest]
      rfl
    refine ⟨_, Episode.left_record _ s, hattests'.id, hfail, ?_⟩
    rw [hattests'.value, value_negation, hvalue]
    exact hsame

/-! ## Equality is identity -/

/-- A script that was loaded finds no array or object equal to a target, alone or with arguments
that have no array or object of the script, however alike they are.  An array or object in hand,
on the other hand, is found equal to what every assertion over it holds. -/
theorem Script.equates_only_aliases (document : Script Json) (supply : Supply) :
    (forall names (args : List Value),
      (forall v, v ∈ args -> forall handle, handle ∈ v.handles ->
        handle ∉ (document.load supply).1.handles) ->
      Session.RecordsOnly Report.TellsApart
        ((document.load supply).1.apply (Bindings.ofArguments names args))) ∧
    Session.RecordsOnly Report.TellsApart (document.load supply).1.run ∧
    forall v : Value, v.isComposite = true -> forall names args (target : Target),
      target.Captures names args v -> forall s, exists a,
        target.assertion (Bindings.ofArguments names args) s = .ok a s ∧ a.Finds v := by
  have hseparate := separate_of_mem_load document supply
  refine ⟨?_, ?_, ?_⟩
  · intro names args hargs
    exact recordsOnly_tellsApart hseparate hargs
  · exact @recordsOnly_tellsApart _ hseparate [] [] nofun
  · intro v hv names args target hcaptures s
    rcases target.assertion_of_captures hcaptures s with ⟨a, ha, hvalue, hnegated⟩
    exact ⟨a, ha, Assertion.finds_of_composite hv hvalue hnegated⟩

/-- Two lists with the same item in one step, and a third one in the hands of the caller. -/
def lookalikes : Script Json where
  policy := none
  checks := [⟨none, some [.str "list", .array [.int 1]], "equals", some (.array [.int 1]), false⟩,
    ⟨some "x", none, "equals", some (.array [.int 1]), true⟩]

theorem Script.equates_only_aliases_lookalikes :
    (forall v, v ∈ [Value.array ⟨0⟩ [.int 1]] -> forall handle, handle ∈ v.handles ->
      handle ∉ (lookalikes.load ⟨1⟩).1.handles) ∧
    Session.RecordsOnly Report.TellsApart
      ((lookalikes.load ⟨1⟩).1.apply
        (Bindings.ofArguments ["x"] [Value.array ⟨0⟩ [.int 1]])) ∧
    (Value.array ⟨0⟩ [.int 1]).isComposite = true ∧
    (Target.param "x").Captures ["x"] [Value.array ⟨0⟩ [.int 1]] (.array ⟨0⟩ [.int 1]) ∧
    exists a, (Target.param "x").assertion
        (Bindings.ofArguments ["x"] [Value.array ⟨0⟩ [.int 1]]) (Session.start .assert) =
          .ok a (Session.start .assert) ∧ a.Finds (.array ⟨0⟩ [.int 1]) := by
  have hargs : forall v, v ∈ [Value.array ⟨0⟩ [.int 1]] -> forall handle,
      handle ∈ v.handles -> handle ∉ (lookalikes.load ⟨1⟩).1.handles := by
    intro v hv handle hhandle hscript
    rw [List.mem_singleton.mp hv] at hhandle
    -- The script draws its handles from the second one on.
    have hzero : handle = ⟨0⟩ := List.mem_singleton.mp hhandle
    have hdrawn := (gives_load lookalikes ⟨1⟩).within handle hscript
    rw [hzero] at hdrawn
    exact absurd hdrawn.1 (by decide)
  have hlast : LastAt ["x"] "x" 0 := lastAt_of_nodup (List.nodup_singleton _) rfl
  have hcaptures : (Target.param "x").Captures ["x"] [Value.array ⟨0⟩ [.int 1]]
      (.array ⟨0⟩ [.int 1]) := .param hlast rfl
  rcases equates_only_aliases lookalikes ⟨1⟩ with ⟨happly, _, hfinds⟩
  exact ⟨hargs, happly _ _ hargs, rfl, hcaptures, hfinds _ rfl _ _ _ hcaptures _⟩

end Contracts
