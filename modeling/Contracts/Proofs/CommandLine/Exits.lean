import Contracts.CommandLine.Outcome
import Contracts.Proofs.Guard.Gate
import Contracts.Proofs.Session.Blame
import Contracts.Proofs.Value.Documents

/-!
# Exits and outcomes

The exit of a command is worked out of the failure that ended the run, the outcome of the reports
that were recorded.  The two agree, since a script ends in one of three ways only: no failure, a
misuse, or a failed check that was raised and is the last one.  Under a policy that raises, no
other check of the run failed.
-/

namespace Contracts

/-! ## Texts of errors -/

theorem getLast?_toList_append (s : String) {t : String} {c : Char}
    (h : t.toList.getLast? = some c) : (s ++ t).toList.getLast? = some c := by
  rw [String.toList_append, List.getLast?_append, h]
  rfl

theorem getLast?_describe (id : String) (value : Value) (against : Option Value) :
    (describe id value against).toList.getLast? = some ')' := by
  unfold describe
  split
  · exact getLast?_toList_append _ rfl
  · split
    · exact getLast?_toList_append _ rfl
    · exact getLast?_toList_append _ rfl

theorem Misuse.getLast?_message_ne (m : Misuse) : m.message.toList.getLast? ≠ some ')' := by
  unfold message
  cases m with
  | missingValue =>
      decide
  | noSuchCheck id =>
      rw [getLast?_toList_append _ (rfl : "'".toList.getLast? = some '\'')]
      decide
  | unknownParameter name =>
      rw [getLast?_toList_append _ (rfl : "'".toList.getLast? = some '\'')]
      decide
  | noTarget index =>
      rw [getLast?_toList_append _ (rfl : " has no target".toList.getLast? = some 't')]
      decide

/-- The description of a report is not the text of a misuse. -/
theorem Report.Described.ne_message {r : Report} (h : r.Described) (m : Misuse) :
    r.description ≠ m.message := by
  intro heq
  have hlast := getLast?_toList_append (r.name ++ ": ")
    (getLast?_describe r.id r.value r.against)
  rw [← h, heq] at hlast
  exact m.getLast?_message_ne hlast

/-! ## How a script ends -/

/-- The reports of a script under a policy, and how it ended. -/
inductive Script.Ending (policy : Policy) : List Report -> Except Failure Unit -> Prop where
  | done {rs : List Report} (hpass : policy.raises = true -> forall r, r ∈ rs -> r.pass = true) :
      Ending policy rs (.ok ())
  | misused {rs : List Report} (m : Misuse)
      (hpass : policy.raises = true -> forall r, r ∈ rs -> r.pass = true) :
      Ending policy rs (.error (.misuse m))
  | raised {front : List Report} {r : Report} {v : Violation} (hraises : policy.raises = true)
      (hfront : forall p, p ∈ front -> p.pass = true) (hr : r.pass = false)
      (hdescribed : r.Described) (hmessage : v.message = r.description) :
      Ending policy (front ++ [r]) (.error (.violation v))

theorem Script.described_apply (script : Script Value) (bindings : Bindings) (policy : Policy) :
    forall r, r ∈ (Session.left (script.apply bindings (Session.start policy))).reports.toList ->
      r.Described := by
  rcases script.recordsOnly_described bindings (Session.start policy) with ⟨rs, hrs, hdescribed⟩
  have hleft : Session.left (Enforcement.ofEpisode (script.apply bindings) (Session.start policy)) =
      Session.left (script.apply bindings (Session.start policy)) := by
    rw [script.apply_eq_run]
    exact (Enforcement.follows_ofEpisode _).left_eq _
  rw [← hleft, hrs, Session.toList_reports_append]
  exact hdescribed

theorem Script.ending_apply (script : Script Value) (bindings : Bindings) (policy : Policy) :
    Script.Ending policy
      (Session.left (script.apply bindings (Session.start policy))).reports.toList
      (Session.outcome (script.apply bindings (Session.start policy))) := by
  have hdescribed := script.described_apply bindings policy
  rw [apply_eq_run] at hdescribed ⊢
  rcases (script.course bindings).quiet_or_violation policy with
    hquiet | ⟨front, r, back, v, hreports, hfront, hv⟩
  · rcases Course.run_of_quiet (s := Session.start policy) hquiet with ⟨houtcome, hleft⟩
    have hpass : policy.raises = true -> forall r, r ∈ (script.course bindings).reports ->
        r.pass = true :=
      fun hraises r hr => Policy.violation?_eq_none_iff.mp (hquiet r hr) hraises
    rw [houtcome, hleft, Session.toList_reports_append]
    unfold Course.ending
    cases (script.course bindings).misuse with
    | none =>
        exact .done hpass
    | some m =>
        exact .misused m hpass
  · have hrun := Course.run_of_violation (s := Session.start policy) hreports
      (fun p hp => Policy.violation?_of_pass policy (hfront p hp)) hv
    rcases Policy.describes_of_violation? hv with ⟨hraises, hr, _⟩
    rw [hrun] at hdescribed ⊢
    show Script.Ending policy ((Session.start policy).append (front ++ [r])).reports.toList _
    have hlast : r.Described := by
      apply hdescribed
      show r ∈ ((Session.start policy).append (front ++ [r])).reports.toList
      simp
    rw [Session.toList_reports_append]
    exact .raised hraises hfront hr hlast (Policy.message_of_violation? hv)

namespace CommandLine

/-! ## Counts -/

/-- Whether an outcome counts its reports. -/
structure Outcome.Counts (o : Outcome) : Prop where
  count_eq : o.count = o.reports.length
  count_eq_add : o.count = o.passed + o.failed
  failed_eq : o.failed = o.reports.countP fun r => !r.pass

theorem Outcome.failed_ofReports (policy : Policy) (reports : List (Snapshot Value)) :
    (ofReports policy reports).failed = reports.countP fun r => !r.pass :=
  List.countP_eq_length_filter.symm

theorem Outcome.counts_ofReports (policy : Policy) (reports : List (Snapshot Value))
    (result : Option Json) (error : Option String) :
    Counts { ofReports policy reports with result := result, error := error } := by
  constructor
  · rfl
  · show reports.length = reports.length - (reports.filter fun r => !r.pass).length + _
    have hle := List.length_filter_le (fun r : Snapshot Value => !r.pass) reports
    exact (Nat.sub_add_cancel hle).symm
  · exact failed_ofReports policy reports

/-- The outcome of the reports of a run. -/
def Outcome.ofRun (policy : Policy) (rs : List Report) : Outcome :=
  ofReports policy (rs.map Report.snapshot)

theorem Outcome.failed_ofRun (policy : Policy) (rs : List Report) :
    (ofRun policy rs).failed = Session.failures rs := by
  unfold ofRun Session.failures
  rw [failed_ofReports, List.countP_map]
  rfl

/-! ## Sessions of checks -/

/-- Whether the last report of an outcome failed and is what the error describes. -/
def Outcome.BlamesLast (o : Outcome) : Prop :=
  exists r, o.reports.getLast? = some r ∧ r.pass = false ∧ o.error = some r.description

/-- How an exit agrees with the outcome of a session of checks. -/
structure Settles (policy : Policy) (o : Outcome) (exit : Exit) : Prop where
  ok_iff : exit.code = 0 <-> o.error = none ∧ o.failed = 0
  violation_iff : exit.code = 1 <->
    (o.error = none ∧ policy = .collect ∧ 0 < o.failed) ∨
      (policy.raises = true ∧ o.failed = 1 ∧ o.BlamesLast)
  usage_iff : exit.code = 2 <-> exists m : Misuse, o.error = some m.message

/-- The failure that a run ended with. -/
def failure? : Except Failure Unit -> Option Failure
  | .ok () =>
      none
  | .error f =>
      some f

/-- The outcome of a run that ended so, with its exit. -/
def settle (policy : Policy) (rs : List Report) (ending : Except Failure Unit) :
    Outcome × Exit :=
  ({ Outcome.ofRun policy rs with error := (failure? ending).map Failure.message },
    (Outcome.ofRun policy rs).exit (failure? ending))

theorem checkSession_eq (script : Script Value) (policy : Policy) :
    checkSession script policy =
      settle policy (Session.left (script.run (Session.start policy))).reports.toList
        (Session.outcome (script.run (Session.start policy))) := by
  unfold checkSession settle Outcome.ofRun
  cases script.run (Session.start policy) with
  | ok x s =>
      simp only [Session.snapshots_eq]
      rfl
  | error f s =>
      simp only [Session.snapshots_eq]
      rfl

theorem failed_settle (policy : Policy) (rs : List Report) (ending : Except Failure Unit) :
    (settle policy rs ending).1.failed = Session.failures rs :=
  Outcome.failed_ofRun policy rs

theorem failed_of_pass {rs : List Report} (policy : Policy) (ending : Except Failure Unit)
    (h : forall r, r ∈ rs -> r.pass = true) : (settle policy rs ending).1.failed = 0 := by
  rw [failed_settle]
  exact (Session.failures_eq_zero_iff rs).mpr h

theorem failed_concat {front : List Report} {r : Report} (policy : Policy)
    (ending : Except Failure Unit) (hfront : forall p, p ∈ front -> p.pass = true)
    (hr : r.pass = false) : (settle policy (front ++ [r]) ending).1.failed = 1 := by
  have hnone := (Session.failures_eq_zero_iff front).mpr hfront
  rw [failed_settle]
  unfold Session.failures at hnone ⊢
  rw [List.countP_append, hnone, List.countP_singleton, hr]
  rfl

theorem blamesLast_concat (policy : Policy) (front : List Report) {r : Report} {v : Violation}
    (hr : r.pass = false) (hmessage : v.message = r.description) :
    (settle policy (front ++ [r]) (.error (.violation v))).1.BlamesLast := by
  refine ⟨r.snapshot, ?_, hr, congrArg some hmessage⟩
  show ((front ++ [r]).map Report.snapshot).getLast? = some r.snapshot
  rw [List.map_append]
  exact List.getLast?_concat

theorem settles_of_done {policy : Policy} {rs : List Report}
    (hpass : policy.raises = true -> forall r, r ∈ rs -> r.pass = true) :
    Settles policy (settle policy rs (.ok ())).1 (settle policy rs (.ok ())).2 := by
  have hzero : policy.raises = true -> (settle policy rs (.ok ())).1.failed = 0 :=
    fun hraises => failed_of_pass policy _ (hpass hraises)
  by_cases hfailed : (settle policy rs (.ok ())).1.failed = 0
  · have hexit : (settle policy rs (.ok ())).2 = .ok := if_pos hfailed
    rw [hexit]
    constructor
    · exact iff_of_true rfl ⟨rfl, hfailed⟩
    · refine iff_of_false (by decide) ?_
      rintro (⟨_, _, hpos⟩ | ⟨_, hone, _⟩)
      · omega
      · omega
    · exact iff_of_false (by decide) nofun
  · have hexit : (settle policy rs (.ok ())).2 = .violation := if_neg hfailed
    have hcollect : policy = .collect := by
      cases policy with
      | collect =>
          rfl
      | assert =>
          exact absurd (hzero rfl) hfailed
      | precondition =>
          exact absurd (hzero rfl) hfailed
    rw [hexit]
    constructor
    · exact iff_of_false (by decide) fun h => hfailed h.2
    · exact iff_of_true rfl (Or.inl ⟨rfl, hcollect, Nat.pos_of_ne_zero hfailed⟩)
    · exact iff_of_false (by decide) nofun

theorem settles_of_misused {policy : Policy} {rs : List Report} (m : Misuse)
    (hpass : policy.raises = true -> forall r, r ∈ rs -> r.pass = true) :
    Settles policy (settle policy rs (.error (.misuse m))).1
      (settle policy rs (.error (.misuse m))).2 := by
  have hexit : (settle policy rs (.error (.misuse m))).2 = .usage := rfl
  rw [hexit]
  constructor
  · exact iff_of_false (by decide) nofun
  · refine iff_of_false (by decide) ?_
    rintro (⟨herror, _⟩ | ⟨hraises, hone, _⟩)
    · cases herror
    · rw [failed_of_pass policy _ (hpass hraises)] at hone
      cases hone
  · exact iff_of_true rfl ⟨m, rfl⟩

theorem settles_of_raised {policy : Policy} {front : List Report} {r : Report} {v : Violation}
    (hraises : policy.raises = true) (hfront : forall p, p ∈ front -> p.pass = true)
    (hr : r.pass = false) (hdescribed : r.Described) (hmessage : v.message = r.description) :
    Settles policy (settle policy (front ++ [r]) (.error (.violation v))).1
      (settle policy (front ++ [r]) (.error (.violation v))).2 := by
  have hexit : (settle policy (front ++ [r]) (.error (.violation v))).2 = .violation := rfl
  rw [hexit]
  constructor
  · exact iff_of_false (by decide) nofun
  · exact iff_of_true rfl (Or.inr ⟨hraises, failed_concat policy _ hfront hr,
      blamesLast_concat policy front hr hmessage⟩)
  · refine iff_of_false (by decide) ?_
    rintro ⟨m, hm⟩
    have htext : v.message = m.message := Option.some.inj hm
    exact hdescribed.ne_message m (hmessage.symm.trans htext)

theorem settles_of_ending {policy : Policy} {rs : List Report} {ending : Except Failure Unit}
    (h : Script.Ending policy rs ending) :
    Settles policy (settle policy rs ending).1 (settle policy rs ending).2 := by
  cases h with
  | done hpass =>
      exact settles_of_done hpass
  | misused m hpass =>
      exact settles_of_misused m hpass
  | raised hraises hfront hr hdescribed hmessage =>
      exact settles_of_raised hraises hfront hr hdescribed hmessage

theorem code_settle_eq_two_iff {policy : Policy} {rs : List Report} {ending : Except Failure Unit}
    (h : Script.Ending policy rs ending) :
    (settle policy rs ending).2.code = 2 <-> exists m, ending = .error (.misuse m) := by
  have husage := (settles_of_ending h).usage_iff
  cases h with
  | done hpass =>
      rw [husage]
      exact iff_of_false nofun nofun
  | misused m hpass =>
      exact iff_of_true rfl ⟨m, rfl⟩
  | raised hraises hfront hr hdescribed hmessage =>
      exact iff_of_false (show Exit.violation.code ≠ 2 by decide) nofun

/-! ## Guarded calls -/

/-- How an exit agrees with the outcome of a guarded call. -/
structure Concludes (args : List Value) (o : Outcome) (exit : Exit) : Prop where
  ok_iff_result : exit.code = 0 <-> o.result.isSome = true
  ok_iff_error : exit.code = 0 <-> o.error = none
  /-- No call is suppressed: it has a result or an error. -/
  answered : ¬ (o.error = none ∧ o.result = none)
  /-- The body hands all the arguments back, also those behind the last parameter. -/
  ok : exit.code = 0 -> o.failed = 0 ∧ o.result = some (.array (args.map Value.toJson))
  violation_iff : exit.code = 1 <-> o.failed = 1 ∧ o.BlamesLast
  usage_iff : exit.code = 2 <-> o.failed = 0 ∧
    ((exists e : SignatureError, o.error = some e.message) ∨
      exists m : Misuse, o.error = some m.message)

/-- A refused call has an error, and no result. -/
theorem concludes_of_error {args : List Value} {o : Outcome} {exit : Exit} {text : String}
    (hresult : o.result = none) (herror : o.error = some text) (hcode : exit.code ≠ 0)
    (hviolation : exit.code = 1 <-> o.failed = 1 ∧ o.BlamesLast)
    (husage : exit.code = 2 <-> o.failed = 0 ∧
      ((exists e : SignatureError, o.error = some e.message) ∨
        exists m : Misuse, o.error = some m.message)) : Concludes args o exit := by
  constructor
  case ok_iff_result =>
    rw [hresult]
    exact iff_of_false hcode nofun
  case ok_iff_error =>
    rw [herror]
    exact iff_of_false hcode nofun
  case answered =>
    rw [herror]
    nofun
  case ok =>
    exact fun hok => absurd hok hcode
  case violation_iff =>
    exact hviolation
  case usage_iff =>
    exact husage

theorem toJson_newArray (args : List Value) (supply : Supply) :
    (Value.newArray args supply).1.toJson = .array (args.map Value.toJson) := by
  exact Value.toJson_array _ args

theorem records_specification (script : Script Value) :
    forall bindings, Session.Records (script.specification bindings) := by
  rw [Script.specification_eq_ofPlan]
  exact fun bindings => Plan.records_run bindings _

/-- What a guarded call prints for a verdict, and its exit. -/
def concluded (args : List Value) (rs : List Report) : Verdict -> Outcome × Exit
  | .admitted =>
      ({ Outcome.ofRun .precondition rs with result := some (.array (args.map Value.toJson)) },
        (Outcome.ofRun .precondition rs).exit none)
  | .suppressed =>
      (Outcome.ofRun .precondition rs, (Outcome.ofRun .precondition rs).exit none)
  | .failed f =>
      settle .precondition rs (.error f)
  | .unbound u =>
      ({ Outcome.ofReports .precondition [] with error := some u.message }, .usage)

theorem guardCall_eq (script : Script Value) (signature : String) (args : List Value)
    (supply : Supply) :
    (guardCall script signature args supply).1 =
      concluded args ((echo script signature).recorded args)
        ((echo script signature).verdict args) := by
  have htraced := Guarded.callTraced_eq (g := echo script signature)
    (records_specification script) args supply
  rw [Guarded.call_eq (records_specification script)] at htraced
  have hbind : forall {α β : Type} (x : Fresh α) (f : α -> Fresh β),
      (x >>= f) supply = f (x supply).1 (x supply).2 := fun _ _ => rfl
  unfold guardCall
  rw [hbind, htraced]
  cases (echo script signature).verdict args with
  | admitted =>
      show (({ Outcome.ofRun .precondition _ with
        result := some (Value.newArray args supply).1.toJson }, _) : Outcome × Exit) = _
      rw [toJson_newArray]
      rfl
  | suppressed =>
      rfl
  | failed f =>
      rfl
  | unbound u =>
      rfl

/-- The verdict over a call by its reports and the end of its script. -/
def verdictOf (rs : List Report) : Except Failure Unit -> Verdict
  | .ok () =>
      if rs.all Report.pass then .admitted else .suppressed
  | .error f =>
      .failed f

theorem guardCall_of_error {signature : String} {e : SignatureError}
    (h : (Signature.declared signature).names = .error e) (script : Script Value)
    (args : List Value) (supply : Supply) :
    (guardCall script signature args supply).1 =
      settle .precondition [] (.error (.signature e)) := by
  have hexamine := Guarded.examine_of_error (g := echo script signature) h args
  rw [guardCall_eq]
  unfold Guarded.verdict Guarded.recorded
  rw [hexamine]
  rfl

/-- A call with names is concluded from the reports of its script and the way that it ends. -/
theorem guardCall_of_names {signature : String} {names : List String}
    (h : (Signature.declared signature).names = .ok names) (script : Script Value)
    (args : List Value) (supply : Supply) {rs : List Report} {ending : Except Failure Unit}
    (hrs : (Session.left (script.apply (Bindings.ofArguments names args)
      (Session.start .precondition))).reports.toList = rs)
    (hending : Session.outcome (script.apply (Bindings.ofArguments names args)
      (Session.start .precondition)) = ending) :
    (guardCall script signature args supply).1 = concluded args rs (verdictOf rs ending) := by
  have hexamine : (echo script signature).examine args =
      Enforcement.ofEpisode (script.apply (Bindings.ofArguments names args))
        (Session.start .precondition) :=
    Guarded.examine_of_ok (g := echo script signature) h args
  subst hrs hending
  rw [guardCall_eq]
  unfold Guarded.verdict Guarded.recorded
  rw [hexamine]
  unfold Enforcement.ofEpisode
  cases script.apply (Bindings.ofArguments names args) (Session.start .precondition) with
  | ok x s =>
      rfl
  | error f s =>
      rfl

theorem guardCall_of_ok {signature : String} {names : List String}
    (h : (Signature.declared signature).names = .ok names) (script : Script Value)
    (args : List Value) (supply : Supply) :
    exists rs ending, Script.Ending .precondition rs ending ∧
      (guardCall script signature args supply).1 = concluded args rs (verdictOf rs ending) :=
  ⟨_, _, script.ending_apply (Bindings.ofArguments names args) .precondition,
    guardCall_of_names h script args supply rfl rfl⟩

theorem concludes_of_signature (args : List Value) (e : SignatureError) :
    Concludes args (settle .precondition [] (.error (.signature e))).1
      (settle .precondition [] (.error (.signature e))).2 := by
  have hexit : (settle .precondition [] (.error (.signature e))).2 = .usage := rfl
  rw [hexit]
  apply concludes_of_error rfl rfl (by decide)
  · exact iff_of_false (by decide) nofun
  · exact iff_of_true rfl ⟨rfl, Or.inl ⟨e, rfl⟩⟩

theorem concludes_of_ending {rs : List Report} {ending : Except Failure Unit}
    (h : Script.Ending .precondition rs ending) (args : List Value) :
    Concludes args (concluded args rs (verdictOf rs ending)).1
      (concluded args rs (verdictOf rs ending)).2 := by
  cases h with
  | done hpass =>
      have hall : rs.all Report.pass = true := List.all_eq_true.mpr (hpass rfl)
      have hverdict : verdictOf rs (.ok ()) = .admitted := if_pos hall
      have hfailed : (Outcome.ofRun .precondition rs).failed = 0 :=
        failed_of_pass .precondition (.ok ()) (hpass rfl)
      have hexit : (concluded args rs .admitted).2 = .ok := if_pos hfailed
      rw [hverdict, hexit]
      constructor
      · exact iff_of_true rfl rfl
      · exact iff_of_true rfl rfl
      · nofun
      · exact fun _ => ⟨hfailed, rfl⟩
      · refine iff_of_false (by decide) ?_
        rintro ⟨hone, _⟩
        cases hfailed.symm.trans hone
      · refine iff_of_false (by decide) ?_
        rintro ⟨_, ⟨e, he⟩ | ⟨m, hm⟩⟩
        · cases he
        · cases hm
  | misused m hpass =>
      have hfailed := failed_of_pass .precondition (.error (.misuse m)) (hpass rfl)
      have hexit : (concluded args rs (.failed (.misuse m))).2 = .usage := rfl
      rw [verdictOf, hexit]
      apply concludes_of_error rfl rfl (by decide)
      · refine iff_of_false (by decide) ?_
        rintro ⟨hone, _⟩
        cases hfailed.symm.trans hone
      · exact iff_of_true rfl ⟨hfailed, Or.inr ⟨m, rfl⟩⟩
  | raised hraises hfront hr hdescribed hmessage =>
      rename_i front r v
      have hfailed := failed_concat .precondition (.error (.violation v)) hfront hr
      have hexit : (concluded args (front ++ [r]) (.failed (.violation v))).2 = .violation := rfl
      rw [verdictOf, hexit]
      apply concludes_of_error rfl rfl (by decide)
      · exact iff_of_true rfl ⟨hfailed, blamesLast_concat .precondition front hr hmessage⟩
      · refine iff_of_false (by decide) ?_
        rintro ⟨hnone, _⟩
        cases hfailed.symm.trans hnone

theorem counts_concluded (args : List Value) (rs : List Report) (v : Verdict) :
    (concluded args rs v).1.Counts := by
  cases v <;> exact Outcome.counts_ofReports _ _ _ _

/-- The exit of a command and what it prints agree, for every script: under every policy where
the script runs as a session of its own, and for every declaration and all arguments where it
guards a call. -/
theorem exits_agree (script : Script Value) :
    (forall policy, (checkSession script policy).1.Counts ∧
      (checkSession script policy).1.reports =
        (Session.left (script.run (Session.start policy))).reports.toList.map Report.snapshot ∧
      Settles policy (checkSession script policy).1 (checkSession script policy).2 ∧
      ((checkSession script policy).2.code = 2 <->
        exists m, Session.outcome (script.run (Session.start policy)) = .error (.misuse m))) ∧
    forall signature args supply,
      (guardCall script signature args supply).1.1.Counts ∧
      Concludes args (guardCall script signature args supply).1.1
        (guardCall script signature args supply).1.2 := by
  constructor
  · intro policy
    have hending : Script.Ending policy
        (Session.left (script.run (Session.start policy))).reports.toList
        (Session.outcome (script.run (Session.start policy))) := script.ending_apply {} policy
    rw [checkSession_eq]
    exact ⟨Outcome.counts_ofReports _ _ _ _, rfl, settles_of_ending hending,
      code_settle_eq_two_iff hending⟩
  · intro signature args supply
    cases hnames : (Signature.declared signature).names with
    | error e =>
        rw [guardCall_of_error hnames]
        exact ⟨Outcome.counts_ofReports _ _ _ _, concludes_of_signature args e⟩
    | ok names =>
        rcases guardCall_of_ok hnames script args supply with ⟨rs, ending, hending, heq⟩
        rw [heq]
        exact ⟨counts_concluded _ _ _, concludes_of_ending hending args⟩

end CommandLine
end Contracts
