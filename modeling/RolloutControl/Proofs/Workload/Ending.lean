import RolloutControl.Proofs.Effect.Attempts
import RolloutControl.Proofs.Workload.Findings
import RolloutControl.Proofs.Workload.Reports
/-! How a cycle ends, whatever has failed before. What can be said about the operand is found out and put into the
status; the result of the cycle goes by the errors of its steps, and by the status if that is stored. -/

namespace RolloutControl

def Call.IsApply : Call → Prop
  | .applyManifest _ | .applyConfigMap _ | .applySecret _ | .applyDeployment _ _ _ => True
  | _ => False

theorem Call.UpdatesStatus.not_isProbe {c : Call} (h : c.UpdatesStatus) : ¬c.IsProbe := by
  cases c with
  | probe => exact h.elim
  | _ => exact id

theorem Call.failed_apply_iff (c : Call) (x : c.Answer) : c.IsApply ∧ c.Failed x ↔
    ∃ e, c.finding? x = some (.refused e) ∨ c.finding? x = some (.stuck e) := by
  cases c with
  | applyManifest | applyConfigMap | applySecret | applyDeployment =>
    cases x <;> simp [IsApply, Failed, finding?]
  | _ => simp [IsApply, finding?]

/-- The group version is one, it is registered, and the first word of its registration about that is that it is
available. -/
def Registered (services : Cache ApiService) (gv : String) : Prop :=
  ∃ group version service condition, groupVersion? gv = some (group, version) ∧
    Cache.find? services ⟨version ++ "." ++ group, none⟩ = some service ∧
    service.conditions.find? (fun c => c.type = "Available") = some condition ∧ condition.status = "True"

theorem registrationProblem?_eq_none_iff {services : Cache ApiService} {gv : String} :
    registrationProblem? services gv = none ↔ Registered services gv := by
  unfold registrationProblem? apiServiceName? Registered
  cases groupVersion? gv with
  | none => simp
  | some x =>
    obtain ⟨group, version⟩ := x
    simp only [Option.map_some]
    cases hfound : Cache.find? services ⟨version ++ "." ++ group, none⟩ with
    | none => simp [hfound]
    | some service =>
      dsimp only
      cases hcondition : service.conditions.find? (fun c => c.type = "Available") with
      | none => simp [hfound, hcondition]
      | some c => simp [hfound, hcondition]

theorem Unavailable.ofProblems_eq_none_iff {reason : String} {l : List String} :
    ofProblems reason l = none ↔ l = [] := by
  cases l <;> simp [ofProblems]

theorem checkRegistrations_eq_none_iff {services : Cache ApiService} {l : List String} :
    checkRegistrations services l = none ↔ ∀ gv ∈ l, Registered services gv := by
  simp only [checkRegistrations, Unavailable.ofProblems_eq_none_iff, List.filterMap_eq_nil_iff,
    registrationProblem?_eq_none_iff]

theorem checkDiscovery_eq_none_iff {answers : List (String × Except Error Unit)} :
    checkDiscovery answers = none ↔ ∀ e ∈ answers, e.2 = .ok () := by
  simp only [checkDiscovery, Unavailable.ofProblems_eq_none_iff, List.filterMap_eq_nil_iff]
  refine forall_congr' fun e => imp_congr_right fun _ => ?_
  rcases e with ⟨gv, err | ⟨⟩⟩ <;> simp

namespace Workload

/-- The deployment that a report is about: the one that was applied, or else what the cache holds. -/
def inspect (s : Settings) : Except Error Applied → Program (Option Deployment)
  | .ok (d, _) => pure (some d)
  | .error e => do
    publish (.warning "DeploymentUpdateFailed"
      ("Failed to apply deployment " ++ s.deploymentName ++ ": " ++ e.message))
    pure ((← view).deployment? s)

def reportOf (s : Settings) (operator : OperatorResource) (errors : List Error) (rolled : Except Error Applied)
    (current : Option Deployment) (problem : Option Unavailable) : Report where
  applied := rolled.toOption
  current
  recorded := (rolled.toOption.bind (·.1.metadata.generation)) <|> recordedGeneration s operator
  problem
  errors := errors ++ errorsOf rolled

theorem conclude_eq (s : Settings) (operator : OperatorResource) (errors : List Error)
    (rolled : Except Error Applied) : conclude s operator errors rolled =
      inspect s rolled >>= fun current => availability s current >>= fun problem =>
        close s operator (reportOf s operator errors rolled current problem) := by
  cases rolled with
  | error e =>
    refine congrArg (publish _ >>= ·) (funext fun _ => congrArg (view >>= ·) (funext fun v => ?_))
    exact Program.bind_assoc (availability s (v.deployment? s)) _ _
  | ok applied =>
    simp only [reportOf, errorsOf, List.append_nil]
    exact Program.bind_assoc (availability s (some applied.1)) _ _

theorem uses_inspect (s : Settings) (rolled : Except Error Applied) :
    (inspect s rolled).Uses fun c => Collaborators.Reading c ∧ ¬c.IsProbe := by
  cases rolled with
  | ok applied => exact .pure _
  | error e => exact .bind (.ask ⟨trivial, id⟩) fun _ => .bind (.ask ⟨trivial, id⟩) fun _ => .pure _

theorem renderErrors_eq_nil_iff {spec : OperatorSpec} :
    renderErrors spec = [] ↔ ∃ rendered, Operand.render spec = .ok rendered := by
  unfold renderErrors
  cases Operand.render spec <;> simp

theorem stepErrors_eq_nil_iff {spec : OperatorSpec} {l : List Finding} : stepErrors spec l = [] ↔
    (∀ f ∈ l, ∀ e, f ≠ .refused e ∧ f ≠ .stuck e) ∧ ∃ rendered, Operand.render spec = .ok rendered := by
  have hfree (f : Finding) :
      (f.refusal? = none ∧ f.obstacle? = none) ↔ ∀ e, f ≠ .refused e ∧ f ≠ .stuck e := by
    cases f <;> simp [Finding.refusal?, Finding.obstacle?]
  simp only [stepErrors, List.append_eq_nil_iff, List.filterMap_eq_nil_iff, renderErrors_eq_nil_iff, ← hfree]
  constructor
  · rintro ⟨⟨hrefusals, hrender⟩, hobstacles⟩
    exact ⟨fun f hf => ⟨hrefusals f hf, hobstacles f hf⟩, hrender⟩
  · rintro ⟨hnone, hrender⟩
    exact ⟨⟨fun f hf => (hnone f hf).1, hrender⟩, fun f hf => (hnone f hf).2⟩

end Workload

/-- The deployment has been seen in the generation that it has, which is the one that was recorded, if one was. -/
def Deployment.CaughtUp (recorded : Option Int) (d : Deployment) : Prop :=
  d.generation = d.observedGeneration ∧ ∀ g, recorded = some g → d.generation = g

namespace WorkloadCondition

theorem deploymentLag_eq_nil_iff {recorded : Option Int} {d : Deployment} :
    deploymentLag recorded d = [] ↔ d.CaughtUp recorded := by
  unfold deploymentLag GenerationRecord.isObserved Deployment.CaughtUp
  dsimp only
  by_cases hseen : d.observedGeneration = d.generation
  · cases recorded with
    | none => simp [hseen]
    | some g =>
      by_cases hsame : g = d.generation
      · simp [hseen, hsame]
      · simp [hseen, hsame, Ne.symm hsame]
  · simp [hseen, Ne.symm hseen]

theorem operatorLag_eq_nil_iff {generation observed : Int} :
    operatorLag generation observed = [] ↔ generation = observed := by
  unfold operatorLag
  split
  · next h => simp [h]
  · next h => simp [h]

theorem progressing_fails_iff {name : String} {d : Option Deployment} {recorded : Option Int}
    {generation observed : Int} : (progressing name d recorded generation observed).verdict = .fails ↔
      (∀ x, d = some x → x.CaughtUp recorded) ∧ generation = observed := by
  have hlag : (d.map (deploymentLag recorded)).getD [] = [] ↔ ∀ x, d = some x → x.CaughtUp recorded := by
    cases d with
    | none => simp
    | some x => simp [deploymentLag_eq_nil_iff]
  rw [← hlag, ← @operatorLag_eq_nil_iff generation observed, ← List.append_eq_nil_iff]
  unfold progressing
  dsimp only
  split
  · next h => simp [h]
  · next h => exact iff_of_false (by simp) h

theorem available_holds_iff {name : String} {problem : Option Unavailable} :
    (available name problem).verdict = .holds ↔ problem = none := by
  cases problem <;> simp [available]

end WorkloadCondition

namespace Workload

theorem conditions_status (r : Report) (s : Settings) (operator : OperatorResource) (now : Instant)
    (old : OperatorStatus) : (r.status s operator now old).conditions =
      setAll now (r.conditions s operator) old.conditions := by
  unfold Report.status
  cases r.applied with
  | none => rfl
  | some x =>
    obtain ⟨d, revision⟩ := x
    dsimp only
    cases d.metadata.generation <;> rfl

theorem exists_find?_status (r : Report) (s : Settings) (operator : OperatorResource) {c : Condition}
    (h : c ∈ r.conditions s operator) (now : Instant) (old : OperatorStatus) :
    ∃ x, Condition.find? c.type (r.status s operator now old).conditions = some x ∧ x.verdict = c.verdict := by
  rw [conditions_status]
  obtain ⟨x, hfound, hverdict, -⟩ := exists_find?_setAll (nodup_conditions r s operator) old.conditions c h
  exact ⟨x, hfound, hverdict⟩

theorem isSettled_status_iff (r : Report) (s : Settings) (operator : OperatorResource) (now : Instant)
    (old : OperatorStatus) : isSettled s (r.status s operator now old) = true ↔ r.problem = none ∧
      (∀ d, r.current = some d → d.CaughtUp r.recorded) ∧
        operator.generation = operator.statusOrEmpty.observedGeneration := by
  obtain ⟨x, hx, hholds⟩ := exists_find?_status r s operator
    (c := WorkloadCondition.available s.conditionPrefix r.problem) (by simp [Report.conditions]) now old
  obtain ⟨y, hy, hfails⟩ := exists_find?_status r s operator
    (c := WorkloadCondition.progressing s.conditionPrefix r.current r.recorded operator.generation
      operator.statusOrEmpty.observedGeneration) (by simp [Report.conditions]) now old
  rw [available_type] at hx
  rw [progressing_type] at hy
  rw [← @WorkloadCondition.available_holds_iff s.conditionPrefix, ← hholds,
    ← @WorkloadCondition.progressing_fails_iff s.conditionPrefix, ← hfails]
  simp [isSettled, Condition.isTrue, Condition.isFalse, hx, hy]

end Workload

namespace Collaborators

open Workload

variable {s : Settings} {σ α β : Type} (w : Collaborators s σ)

/-- No step has gone wrong if no object was refused, and all of them could be made. -/
theorem stepErrors_findings_eq_nil_iff {spec : OperatorSpec} {p : Program α} {a : σ} :
    stepErrors spec (w.findings p a) = [] ↔
      (∀ x ∈ p.trace w.answer a, x.call.IsApply → ¬x.call.Failed x.answer) ∧
        ∃ rendered, Operand.render spec = .ok rendered := by
  rw [stepErrors_eq_nil_iff]
  refine and_congr_left' ⟨fun h x hx happly hfailed => ?_, fun h f hf e => ?_⟩
  · obtain ⟨e, he⟩ := (Call.failed_apply_iff x.call x.answer).1 ⟨happly, hfailed⟩
    rcases he with he | he
    · exact (h _ (List.mem_filterMap.2 ⟨x, hx, he⟩) e).1 rfl
    · exact (h _ (List.mem_filterMap.2 ⟨x, hx, he⟩) e).2 rfl
  · obtain ⟨x, hx, hfound⟩ := List.mem_filterMap.1 hf
    have hnone : ¬(x.call.IsApply ∧ x.call.Failed x.answer) := fun hx' => h x hx hx'.1 hx'.2
    rw [Call.failed_apply_iff, not_exists] at hnone
    obtain ⟨hrefused, hstuck⟩ := not_or.1 (hnone e)
    rw [hfound] at hrefused hstuck
    exact ⟨fun he => hrefused (congrArg some he), fun he => hstuck (congrArg some he)⟩

theorem deploy_of_ok {recorded : Option Int} {p : Plan} {wanted d : Deployment} {a : σ}
    (h : w.result (deploy s recorded p wanted) a = .ok d) : w.Manages (deploy s recorded p wanted) a := by
  rw [deploy, manages_bind]
  rw [deploy, result_bind] at h
  cases hx : w.result (Program.ask (.applyDeployment wanted recorded p.force)) a with
  | error e =>
    rw [hx] at h
    cases h
  | ok y =>
    have hok : ¬Call.Failed (.applyDeployment wanted recorded p.force)
        (w.answer (.applyDeployment wanted recorded p.force) a).1 := by
      rw [show (w.answer (.applyDeployment wanted recorded p.force) a).1 = .ok y from hx]
      exact id
    refine ⟨(w.failsOnly_ask _ a).2 fun hfailed => absurd hfailed hok, ?_⟩
    obtain ⟨d', _ | _⟩ := y
    · exact w.failsOnly_pure _ _
    · exact (w.manages_bind _ _ _).2 ⟨(w.failsOnly_ask _ _).2 False.elim, w.failsOnly_pure _ _⟩

theorem carryOut_of_ok {operator : OperatorResource} {recorded : Option Int} {p : Plan} {applied : Applied} {a : σ}
    (h : w.result (carryOut s operator recorded p (.ok ())) a = .ok applied) :
    w.Manages (carryOut s operator recorded p (.ok ())) a := by
  rw [carryOut, applyPlan_eq_deploy, result_bind, result_bind, result_view] at h
  rw [carryOut, applyPlan_eq_deploy, manages_bind, manages_bind, result_bind, result_view]
  cases hx : w.result (deploy s recorded p (p.wanted s operator.spec (w.state a).view)) (w.after view a) with
  | error e =>
    rw [hx] at h
    cases h
  | ok d => exact ⟨⟨(w.failsOnly_ask .view a).2 False.elim, w.deploy_of_ok hx⟩, w.failsOnly_pure _ _⟩

theorem takeSnapshot_of_ok {r : Int} {a : σ} (h : w.result (takeSnapshot s r) a = .ok ()) :
    w.Manages (takeSnapshot s r) a := by
  rw [takeSnapshot, result_bind] at h
  rw [takeSnapshot, manages_bind]
  refine ⟨(w.failsOnly_ask .view a).2 False.elim, ?_⟩
  generalize Rollout.snapshot? (w.result view a) s r = snapshot at h ⊢
  cases snapshot with
  | none => exact w.failsOnly_pure _ _
  | some x =>
    dsimp only at h ⊢
    rw [result_bind] at h
    rw [manages_bind]
    cases hx : w.result (Program.ask (.applySecret x)) (w.after view a) with
    | error e =>
      rw [hx] at h
      cases h
    | ok changed =>
      refine ⟨(w.failsOnly_ask _ _).2 fun hfailed => ?_, w.failsOnly_pure _ _⟩
      rw [show (w.answer (.applySecret x) (w.after view a)).1 = .ok changed from hx] at hfailed
      exact hfailed.elim

theorem execute_of_ok {operator : OperatorResource} {recorded : Option Int} {p : Plan} {applied : Applied} {a : σ}
    (h : w.result (execute s operator recorded p) a = .ok applied) :
    w.Manages (execute s operator recorded p) a := by
  unfold execute at h ⊢
  split at h
  · next hsame =>
    rw [if_pos hsame]
    exact w.carryOut_of_ok h
  · next hnew =>
    rw [if_neg hnew, manages_bind]
    rw [result_bind] at h
    cases hx : w.result (takeSnapshot s p.revision) a with
    | error e =>
      rw [hx] at h
      cases h
    | ok u =>
      rw [hx] at h
      exact ⟨w.takeSnapshot_of_ok hx, w.carryOut_of_ok h⟩

theorem found_of_rollOut {operator : OperatorResource} {changed : Bool} {recorded : Option Int} {d : Deployment}
    {r : Int} {a : σ} (h : w.result (rollOut s operator changed recorded) a = .ok (d, r)) :
    (w.state (w.after (rollOut s operator changed recorded) a)).view.deployment? s = some d := by
  rw [rollOut_eq_execute, result_bind] at h
  rw [rollOut_eq_execute, after_bind]
  obtain ⟨d', hresult, -, hdone⟩ := w.execute_of_manages (w.execute_of_ok h)
  obtain ⟨rfl, -⟩ := Prod.mk.inj (Except.ok.inj (h.symm.trans hresult))
  exact hdone.found

theorem apiServices_answer (c : Call) (a : σ) :
    (w.state (w.answer c a).2).view.apiServices = (w.state a).view.apiServices := by
  have hallowed := w.allowed c a
  cases c with
  | view => rw [hallowed.2]
  | clock | probe | publish | sleep => rw [show w.state (w.answer _ a).2 = w.state a from hallowed]
  | applyManifest m => rw [show w.state (w.answer (.applyManifest m) a).2 = w.state a from hallowed]
  | getOperator => rw [w.state_reading (c := .getOperator) trivial]
  | writeSpec version spec =>
    cases hx : (w.answer (.writeSpec version spec) a).1 <;> simp only [Call.Allows, hx] at hallowed
    · rw [hallowed]
    · rw [hallowed.1]
  | writeStatus version status =>
    cases hx : (w.answer (.writeStatus version status) a).1 <;> simp only [Call.Allows, hx] at hallowed
    · rw [hallowed]
    · rw [hallowed.1]
  | applyConfigMap cm =>
    cases hx : (w.answer (.applyConfigMap cm) a).1 <;> simp only [Call.Allows, hx] at hallowed
    · rw [hallowed]
    · obtain ⟨m, hstate⟩ := hallowed
      rw [hstate]
  | applySecret x =>
    cases hx : (w.answer (.applySecret x) a).1 <;> simp only [Call.Allows, hx] at hallowed
    · rw [hallowed]
    · obtain ⟨m, hstate, -⟩ := hallowed
      rw [hstate]
  | applyDeployment d expected force =>
    cases hx : (w.answer (.applyDeployment d expected force) a).1 <;> simp only [Call.Allows, hx] at hallowed
    · rw [hallowed]
    · obtain ⟨m, hstate, -⟩ := hallowed
      rw [hstate]

theorem apiServices_after (p : Program α) (a : σ) :
    (w.state (w.after p a)).view.apiServices = (w.state a).view.apiServices :=
  p.uses_any.run_keeps w.answer (fun b => (w.state b).view.apiServices) (fun c b _ => w.apiServices_answer c b) a

/-- Discovery has been asked for every group version, and has answered each time. -/
structure Discovers (p : Program α) (a : σ) : Prop where
  asked : ∀ gv ∈ s.groupVersions, ∃ x ∈ p.trace w.answer a, x.call = .probe gv
  answered : ∀ x ∈ p.trace w.answer a, x.call.IsProbe → ¬x.call.Failed x.answer

theorem discovers_of_trace {p : Program α} {q : Program β} {a b : σ} {l r : List (Step σ)}
    (h : p.trace w.answer a = l ++ q.trace w.answer b ++ r) (hl : ∀ x ∈ l, ¬x.call.IsProbe)
    (hr : ∀ x ∈ r, ¬x.call.IsProbe) : w.Discovers p a ↔ w.Discovers q b := by
  have hprobes (x : Step σ) (hx : x.call.IsProbe) : x ∈ p.trace w.answer a ↔ x ∈ q.trace w.answer b := by
    rw [h, List.mem_append, List.mem_append]
    refine ⟨?_, fun hq => .inl (.inr hq)⟩
    rintro ((hx' | hx') | hx')
    · exact absurd hx (hl x hx')
    · exact hx'
    · exact absurd hx (hr x hx')
  have hasked (gv : String) : (∃ x ∈ p.trace w.answer a, x.call = .probe gv) ↔
      ∃ x ∈ q.trace w.answer b, x.call = .probe gv :=
    exists_congr fun x => and_congr_left fun hx => hprobes x (hx ▸ trivial)
  constructor
  · rintro ⟨hask, hanswer⟩
    exact ⟨fun gv hgv => (hasked gv).1 (hask gv hgv), fun x hx hprobe => hanswer x ((hprobes x hprobe).2 hx) hprobe⟩
  · rintro ⟨hask, hanswer⟩
    exact ⟨fun gv hgv => (hasked gv).2 (hask gv hgv), fun x hx hprobe => hanswer x ((hprobes x hprobe).1 hx) hprobe⟩

theorem mem_trace_probeAll {l : List String} {gv : String} (h : gv ∈ l) (a : σ) :
    ∃ x ∈ (probeAll l).trace w.answer a, x.call = .probe gv := by
  induction l generalizing a with
  | nil => simp at h
  | cons e r ih =>
    rw [probeAll, Program.trace_bind, Program.trace_bind]
    rcases List.mem_cons.1 h with rfl | h
    · exact ⟨_, List.mem_append_left _ (List.mem_singleton_self _), rfl⟩
    · obtain ⟨x, hx, hcall⟩ := ih h _
      exact ⟨x, List.mem_append_right _ (List.mem_append_left _ hx), hcall⟩

theorem uses_probeAll (l : List String) : (probeAll l).Uses Call.IsProbe := by
  induction l with
  | nil => exact .pure _
  | cons gv r ih => exact .bind (.ask trivial) fun _ => .bind ih fun _ => .pure _

theorem discovers_probeAll (a : σ) : w.Discovers (probeAll s.groupVersions) a ↔
    ∀ x ∈ (probeAll s.groupVersions).trace w.answer a, ¬x.call.Failed x.answer :=
  ⟨fun h x hx => h.answered x hx ((uses_probeAll _).mem_trace w.answer hx),
    fun h => ⟨fun _ hgv => w.mem_trace_probeAll hgv a, fun x hx _ => h x hx⟩⟩

theorem checkDiscovery_probeAll (l : List String) (a : σ) :
    checkDiscovery (w.result (probeAll l) a) = none ↔
      ∀ x ∈ (probeAll l).trace w.answer a, ¬x.call.Failed x.answer := by
  rw [checkDiscovery_eq_none_iff]
  change _ ↔ w.Succeeds (probeAll l) a
  induction l generalizing a with
  | nil => simp [probeAll]
  | cons gv r ih =>
    have hfirst : w.Succeeds (Program.ask (.probe gv)) a ↔ w.result (Program.ask (.probe gv)) a = .ok () := by
      rw [succeeds_ask]
      change ¬Call.Failed (.probe gv) (w.answer (.probe gv) a).1 ↔ (w.answer (.probe gv) a).1 = .ok ()
      rcases (w.answer (.probe gv) a).1 with e | ⟨⟩ <;> simp [Call.Failed]
    rw [probeAll, succeeds_bind, succeeds_bind, hfirst, ← ih]
    simp

/-- The operand is available if it has a replica that is ready, and everything is registered and answers. -/
theorem result_availability_eq_none_iff (current : Option Deployment) (a : σ) :
    w.result (availability s current) a = none ↔ (∃ d, current = some d ∧ d.readyReplicas ≠ 0) ∧
      (∀ gv ∈ s.groupVersions, Registered (w.state a).view.apiServices gv) ∧
        w.Discovers (availability s current) a := by
  unfold availability
  cases current with
  | none => simp
  | some d =>
    by_cases hready : d.readyReplicas = 0
    · simp [hready]
    · simp only [hready, if_false, result_bind, result_view, Option.some.injEq, exists_eq_left', ne_eq,
        not_false_eq_true, true_and]
      rw [← checkRegistrations_eq_none_iff]
      cases hregistered : checkRegistrations (w.state a).view.apiServices s.groupVersions with
      | some problem => simp
      | none =>
        simp only [true_and, result_bind, result_pure]
        rw [checkDiscovery_probeAll, ← discovers_probeAll]
        refine (w.discovers_of_trace (l := view.trace w.answer a) (r := []) ?_ ?_ ?_).symm
        · have hview : (view.run w.answer a).1.apiServices = (w.state a).view.apiServices := by
            rw [show (view.run w.answer a).1 = (w.state a).view from w.result_view a]
          rw [Program.trace_bind, hview, hregistered, List.append_nil, Program.trace_bind, Program.trace_pure,
            List.append_nil]
          rfl
        · intro x hx
          obtain rfl := List.mem_singleton.1 hx
          exact id
        · exact fun x hx => absurd hx List.not_mem_nil

theorem trace_then (p : Program α) (f : α → Program β) (a : σ) :
    (p >>= f).trace w.answer a = p.trace w.answer a ++ (f (w.result p a)).trace w.answer (w.after p a) :=
  Program.trace_bind w.answer p f a

theorem trace_close (operator : OperatorResource) (report : Report) (c : σ) :
    (close s operator report).trace w.answer c =
      (updateStatus (report.status s operator)).trace w.answer c := by
  rw [close_eq, trace_then]
  exact List.append_nil _

/-- How the end of a cycle leaves things and what it results in: the report is stored, or an error keeps it from
being stored and everything is as it was before. -/
inductive Closes (operator : OperatorResource) (report : Report) (c d : σ) :
    Option Error → Except Error Action → Prop
  | stored (now : Instant)
      (status : (w.state d).operator.statusOrEmpty =
        report.status s operator now (w.state c).operator.statusOrEmpty)
      (view : (w.state d).view = (w.state c).view) :
      Closes operator report c d none (ending s report.errors (w.state d).operator.statusOrEmpty)
  | failed (e : Error) (state : w.state d = w.state c) :
      Closes operator report c d (some e) (.error (.several ((report.errors ++ [e]).map (·.message))))

section Closes
variable {w} {operator : OperatorResource} {report : Report} {c d : σ} {last : Option Error}
  {result : Except Error Action} (h : w.Closes operator report c d last result)

include h

theorem Closes.view_eq : (w.state d).view = (w.state c).view := by
  cases h with
  | stored now status view => exact view
  | failed e state => rw [state]

theorem Closes.exists_stored (hlast : last = none) : ∃ now, (w.state d).operator.statusOrEmpty =
    report.status s operator now (w.state c).operator.statusOrEmpty := by
  cases h with
  | stored now status view => exact ⟨now, status⟩
  | failed e state => cases hlast

theorem Closes.state_eq {e : Error} (hlast : last = some e) : w.state d = w.state c := by
  cases h with
  | stored now status view => cases hlast
  | failed e state => exact state

end Closes

theorem view_answer_of_reports {c : Call} (hc : Reading c ∨ c.IsStatusWrite) (a : σ) :
    (w.state (w.answer c a).2).view = (w.state a).view := by
  rcases hc with hreading | hwrite
  · rw [w.state_reading hreading]
  · cases c with
    | writeStatus version status =>
      have hallowed := w.allowed (.writeStatus version status) a
      cases hx : (w.answer (.writeStatus version status) a).1 <;> simp only [Call.Allows, hx] at hallowed
      · rw [hallowed]
      · exact hallowed.1
    | _ => exact hwrite.elim

theorem closes_close (operator : OperatorResource) (report : Report) (c : σ) :
    w.Closes operator report c (w.after (close s operator report) c)
      ((close s operator report).lastError? w.answer c) (w.result (close s operator report) c) := by
  have hsettles := w.settles_updateStatus (report.status s operator) c
  have hlast : (close s operator report).lastError? w.answer c =
      errorOf? (w.result (updateStatus (report.status s operator)) c) := by
    rw [Program.lastError?_of_trace w.answer (l := []) (w.trace_close operator report c)
      (Program.trace_updateStatus_ne_nil _ _ _)]
    exact Program.lastError?_updateStatus w.answer (report.status s operator) c
  have hview : (w.state (w.after (updateStatus (report.status s operator)) c)).view = (w.state c).view :=
    (uses_updateStatus _).run_keeps w.answer (fun b => (w.state b).view)
      (fun _ b hc => w.view_answer_of_reports hc b) c
  rw [hlast, close_eq, after_bind, after_pure, result_bind, result_pure]
  generalize w.after (updateStatus (report.status s operator)) c = d at hsettles hview ⊢
  generalize w.result (updateStatus (report.status s operator)) c = x at hsettles ⊢
  cases hsettles with
  | stored now written h => exact .stored now h hview
  | failed e h => exact .failed e h

theorem result_inspect {rolled : Except Error Applied} {b : σ}
    (h : ∀ d r, rolled = .ok (d, r) → (w.state b).view.deployment? s = some d) :
    w.result (inspect s rolled) b = (w.state b).view.deployment? s := by
  cases rolled with
  | ok applied => exact (h applied.1 applied.2 rfl).symm
  | error e =>
    simp only [inspect, result_bind, result_pure, result_view]
    rw [w.state_after_publish]

theorem conclude_then (operator : OperatorResource) (errors : List Error) (rolled : Except Error Applied) (b : σ) :
    let b' := w.after (inspect s rolled) b
    let current := w.result (inspect s rolled) b
    let c := w.after (availability s current) b'
    let report := reportOf s operator errors rolled current (w.result (availability s current) b')
    w.state b' = w.state b ∧ w.state c = w.state b ∧
      w.result (conclude s operator errors rolled) b = w.result (close s operator report) c ∧
      w.after (conclude s operator errors rolled) b = w.after (close s operator report) c ∧
      (conclude s operator errors rolled).trace w.answer b = (inspect s rolled).trace w.answer b ++
        (availability s current).trace w.answer b' ++ (close s operator report).trace w.answer c := by
  have hinspected := w.state_after_reading ((uses_inspect s rolled).mono fun _ => And.left) b
  have hassessed := w.state_after_reading (uses_availability s (w.result (inspect s rolled) b))
    (w.after (inspect s rolled) b)
  refine ⟨hinspected, hassessed.trans hinspected, ?_, ?_, ?_⟩
  · rw [conclude_eq, result_bind, result_bind]
  · rw [conclude_eq, after_bind, after_bind]
  · rw [conclude_eq, trace_then, trace_then, List.append_assoc]

/-- The rollout of a cycle has come to an end there. What is registered is as it was, discovery has not been asked
yet, and a deployment that has been applied is in the cache. -/
structure Reaches (a b : σ) (refusals : List Error) (rolled : Except Error Applied) : Prop
    extends w.Arrives a b refusals rolled where
  apiServices : (w.state b).view.apiServices = (w.state a).view.apiServices
  found : ∀ d r, rolled = .ok (d, r) → (w.state b).view.deployment? s = some d
  trace : ∃ l, (cycle s).trace w.answer a = l ++ (conclude s (w.state a).operator
      (refusals ++ renderErrors (w.state a).operator.spec) rolled).trace w.answer b ∧
    ∀ x ∈ l, ¬x.call.IsProbe

theorem uses_prepare_unprobed : (prepare s).Uses fun c => ¬c.IsProbe :=
  uses_prepare_of s id (fun _ => id) fun _ hc => hc.lasting.not_isProbe

theorem uses_rollOut_unprobed (operator : OperatorResource) (changed : Bool) (recorded : Option Int) :
    (rollOut s operator changed recorded).Uses fun c => ¬c.IsProbe :=
  uses_rollOut_of id (fun _ => id) (fun _ => id) fun _ _ => id

theorem exists_reaches {a : σ} (hread : w.result (Program.ask .getOperator) a = .ok (w.state a).operator)
    (h : Deployable (w.state a).operator.spec) : ∃ b refusals rolled, w.Reaches a b refusals rolled := by
  obtain ⟨changed, refusals, hready, harrives⟩ := w.arrives_rollOut hread h
  refine ⟨_, refusals, _, ⟨harrives, ?_, fun d r => w.found_of_rollOut, ?_⟩⟩
  · rw [apiServices_after, apiServices_after]
  refine ⟨(prepare s).trace w.answer a ++ (rollOut s (w.state a).operator changed
    (recordedGeneration s (w.state a).operator)).trace w.answer (w.after (prepare s) a), ?_, fun x hx => ?_⟩
  · rw [cycle_eq_prepare, trace_then, hready, resume, trace_then, ← List.append_assoc]
  · rcases List.mem_append.1 hx with hx | hx
    · exact uses_prepare_unprobed.mem_trace w.answer hx
    · exact (uses_rollOut_unprobed _ _ _).mem_trace w.answer hx

/-- The cycle that begins here has this to report there, when its rollout has ended like this. -/
structure Reports (a c : σ) (rolled : Except Error Applied) (report : Report) : Prop where
  operator : (w.state c).operator = (w.state a).operator
  findings : ∃ (refusals : List Error) (v : ClusterView) (p : Plan), w.findings (cycle s) a =
    refusals.map .refused ++ rolledFindings (p.wanted s (w.state a).operator.spec v)
      (recordedGeneration s (w.state a).operator) p rolled
  applied : report.applied = rolled.toOption
  current : report.current = (w.state c).view.deployment? s
  deployed : ∀ d r, rolled = .ok (d, r) → report.current = some d
  recorded : report.recorded =
    ((rolled.toOption.bind (·.1.metadata.generation)) <|> recordedGeneration s (w.state a).operator)
  problem : report.problem = none ↔ (∃ d, report.current = some d ∧ d.readyReplicas ≠ 0) ∧
    (∀ gv ∈ s.groupVersions, Registered (w.state a).view.apiServices gv) ∧ w.Discovers (cycle s) a
  errors : report.errors = stepErrors (w.state a).operator.spec (w.findings (cycle s) a)
  closes : w.Closes (w.state a).operator report c (w.after (cycle s) a) ((cycle s).lastError? w.answer a)
    (w.result (cycle s) a)

theorem exists_reports {a : σ} (hread : w.result (Program.ask .getOperator) a = .ok (w.state a).operator)
    (h : Deployable (w.state a).operator.spec) : ∃ c rolled report, w.Reports a c rolled report := by
  obtain ⟨b, refusals, rolled, hrolls⟩ := w.exists_reaches hread h
  obtain ⟨v, p, hfindings, -⟩ := hrolls.findings
  obtain ⟨l, htrace, hunprobed⟩ := hrolls.trace
  obtain ⟨hinspected, hassessed, hresult, hafter, hcalls⟩ := w.conclude_then (s := s) (w.state a).operator
    (refusals ++ renderErrors (w.state a).operator.spec) rolled b
  rw [hcalls, ← List.append_assoc, ← List.append_assoc] at htrace
  refine ⟨w.after (availability s (w.result (inspect s rolled) b)) (w.after (inspect s rolled) b), rolled,
    reportOf s (w.state a).operator (refusals ++ renderErrors (w.state a).operator.spec) rolled
      (w.result (inspect s rolled) b)
      (w.result (availability s (w.result (inspect s rolled) b)) (w.after (inspect s rolled) b)),
    ⟨?_, ⟨refusals, v, p, hfindings⟩, rfl, ?_, ?_, rfl, ?_, ?_, ?_⟩⟩
  · rw [hassessed, hrolls.operator]
  · rw [hassessed]
    exact w.result_inspect hrolls.found
  · rintro d r rfl
    rfl
  · have hproblem := w.result_availability_eq_none_iff (s := s) (w.result (inspect s rolled) b)
      (w.after (inspect s rolled) b)
    rw [hinspected, hrolls.apiServices, ← w.discovers_of_trace htrace] at hproblem
    · exact hproblem
    · intro x hx
      rcases List.mem_append.1 hx with hx | hx
      · exact hunprobed x hx
      · exact ((uses_inspect s rolled).mem_trace w.answer hx).2
    · intro x hx
      rw [trace_close] at hx
      exact ((updatesStatus_updateStatus _).mem_trace w.answer hx).not_isProbe
  · rw [hfindings, stepErrors_findings]
    rfl
  · rw [hrolls.result, hrolls.after, hresult, hafter, Program.lastError?_of_trace w.answer htrace]
    · exact w.closes_close _ _ _
    · rw [trace_close]
      exact Program.trace_updateStatus_ne_nil _ _ _

end Collaborators

end RolloutControl
