import RolloutControl.Proofs.Workload.Turn
/-! How a cycle goes on once it is prepared, call by call, and what is left of a rollout that fails: a
snapshot at most, and words in the status. -/

namespace RolloutControl

/-- A view that differs from another one in the snapshot of a revision at most. -/
structure ClusterView.SameButSnapshot (s : Settings) (r : Int) (v v' : ClusterView) : Prop where
  configMaps : v'.configMaps = v.configMaps
  deployments : v'.deployments = v.deployments
  secrets : ∀ name, name ≠ Rollout.snapshotName s r →
    v'.secret? s.targetSpace name = v.secret? s.targetSpace name

theorem ClusterView.SameButSnapshot.refl (s : Settings) (r : Int) (v : ClusterView) : v.SameButSnapshot s r v :=
  ⟨rfl, rfl, fun _ _ => rfl⟩

namespace Workload

/-- The rollout of a plan, once the snapshot is taken. -/
def carryOut (s : Settings) (operator : OperatorResource) (recorded : Option Int) (p : Plan) :
    Except Error Unit → Program (Except Error Applied)
  | .error e => pure (.error e)
  | .ok () => do
    match ← applyPlan s operator recorded p with
    | .error e => pure (.error e)
    | .ok d => pure (.ok (d, p.revision))

def execute (s : Settings) (operator : OperatorResource) (recorded : Option Int) (p : Plan) :
    Program (Except Error Applied) :=
  if p.revision = operator.statusOrEmpty.latestRevision then carryOut s operator recorded p (.ok ())
  else takeSnapshot s p.revision >>= carryOut s operator recorded p

theorem rollOut_eq_execute (s : Settings) (operator : OperatorResource) (changed : Bool) (recorded : Option Int) :
    rollOut s operator changed recorded =
      view >>= fun v => execute s operator recorded (plan v s operator changed) := rfl

def ending (s : Settings) (errors : List Error) (status : OperatorStatus) : Except Error Action :=
  if !errors.isEmpty then .error (.several (errors.map (·.message)))
  else .ok (if isSettled s status then .awaitChange else .requeueRateLimited)

/-- What a cycle ends with whose status is stored like this, or is not. -/
def closing (s : Settings) (errors : List Error) : Except Error StatusUpdate → Except Error Action
  | .error e => .error (.several ((errors ++ [e]).map (·.message)))
  | .ok x => ending s errors x.1

theorem close_eq (s : Settings) (operator : OperatorResource) (report : Report) : close s operator report =
    updateStatus (report.status s operator) >>= fun x => pure (closing s report.errors x) := by
  refine congrArg (updateStatus (report.status s operator) >>= ·) (funext fun x => ?_)
  cases x with
  | error e => rfl
  | ok x =>
    dsimp only [closing, ending]
    split <;> rfl

def IsRollout (s : Settings) (p : Plan) : Call → Prop
  | .applySecret _ => True
  | .applyDeployment d _ force => force = p.force ∧
    ∃ logLevel proxy, d = Rollout.deployment s logLevel p.revision p.digests proxy
  | c => Collaborators.Reading c

theorem uses_execute_of {kind : Call → Prop} {s : Settings} {operator : OperatorResource} {recorded : Option Int}
    {p : Plan} (hview : kind .view) (hpublish : ∀ e, kind (.publish e)) (hcopy : ∀ x, kind (.applySecret x))
    (happly : ∀ proxy, kind (.applyDeployment
      (Rollout.deployment s operator.spec.logLevel p.revision p.digests proxy) recorded p.force)) :
    (execute s operator recorded p).Uses kind := by
  have hcopies : (takeSnapshot s p.revision).Uses kind := by
    refine .bind (.ask hview) fun v => ?_
    split
    · exact .pure _
    · refine .bind (.ask (hcopy _)) fun x => ?_
      cases x <;> exact .pure _
  have happlies : (applyPlan s operator recorded p).Uses kind := by
    refine .bind (.ask hview) fun v => .bind (.ask (happly _)) fun x => ?_
    rcases x with e | ⟨d, _ | _⟩
    · exact .pure _
    · exact .pure _
    · exact .bind (.ask (hpublish _)) fun _ => .pure _
  have hends (copied : Except Error Unit) : (carryOut s operator recorded p copied).Uses kind := by
    cases copied with
    | error e => exact .pure _
    | ok u =>
      refine .bind happlies fun x => ?_
      cases x <;> exact .pure _
  unfold execute
  split
  · exact hends (.ok ())
  · exact .bind hcopies hends

theorem uses_execute (s : Settings) (operator : OperatorResource) (recorded : Option Int) (p : Plan) :
    (execute s operator recorded p).Uses (IsRollout s p) :=
  uses_execute_of trivial (fun _ => trivial) (fun _ => trivial) fun _ => ⟨rfl, _, _, rfl⟩

theorem uses_rollOut_of {kind : Call → Prop} {s : Settings} {operator : OperatorResource} {changed : Bool}
    {recorded : Option Int} (hview : kind .view) (hpublish : ∀ e, kind (.publish e))
    (hcopy : ∀ x, kind (.applySecret x)) (happly : ∀ d force, kind (.applyDeployment d recorded force)) :
    (rollOut s operator changed recorded).Uses kind := by
  rw [rollOut_eq_execute]
  exact .bind (.ask hview) fun v => uses_execute_of hview hpublish hcopy fun proxy => happly _ _

theorem uses_announce (s : Settings) (errors : List Error) (rolled : Except Error Applied) :
    (announce s errors rolled).Uses Collaborators.Reading := by
  cases rolled with
  | ok applied => exact .pure _
  | error e => exact .bind (.ask trivial) fun _ => .pure _

theorem uses_assess (s : Settings) (operator : OperatorResource) (outcome : Option Applied × List Error) :
    (assess s operator outcome).Uses Collaborators.Reading := by
  obtain ⟨applied, errors⟩ := outcome
  cases applied with
  | some x => exact .bind (.pure _) fun current => .bind (uses_availability s current) fun _ => .pure _
  | none =>
    exact .bind (.ask trivial) fun v => .bind (.pure _) fun current =>
      .bind (uses_availability s current) fun _ => .pure _

theorem uses_conclude (s : Settings) (operator : OperatorResource) (errors : List Error)
    (rolled : Except Error Applied) : (conclude s operator errors rolled).Uses fun c =>
      Collaborators.Reading c ∨ c.IsStatusWrite := by
  refine .bind ((uses_announce s errors rolled).mono fun _ => .inl) fun outcome => ?_
  refine .bind ((uses_assess s operator outcome).mono fun _ => .inl) fun report => ?_
  refine .bind (Collaborators.uses_updateStatus _) fun x => ?_
  rcases x with e | ⟨status, -⟩
  · exact .pure _
  · dsimp only
    split <;> exact .pure _

theorem uses_waitForConfig (s : Settings) :
    (waitForConfig s).Uses fun c => Collaborators.Reading c ∨ c.IsStatusWrite := by
  refine .bind (Collaborators.uses_updateStatus _) fun x => ?_
  cases x <;> exact .pure _

theorem uses_resume (s : Settings) (p : Preparation) :
    (resume s p).Uses fun c => ∀ c', ¬c.Displaces c' := by
  have hreports (c : Call) (hc : Collaborators.Reading c ∨ c.IsStatusWrite) (c' : Call) :
      ¬c.Displaces c' := by
    rcases hc with hreading | hwrite
    · exact hreading.not_displaces
    · cases c with
      | writeStatus => exact id
      | _ => exact hwrite.elim
  have hrolls (p : Plan) (c : Call) (hc : IsRollout s p c) (c' : Call) : ¬c.Displaces c' := by
    cases c with
    | applyManifest | applyConfigMap => exact hc.elim
    | _ => exact id
  cases p with
  | failed | unmanaged => exact .pure _
  | waiting => exact (uses_waitForConfig s).mono hreports
  | ready operator changed errors =>
    refine .bind (.bind (.ask (hreports .view (.inl trivial))) fun v => ?_) fun rolled => ?_
    · exact (uses_execute s operator _ _).mono (hrolls _)
    · exact (uses_conclude s operator errors rolled).mono hreports

/-- Nothing has been observed as long as nothing is applied. -/
theorem status_observedGeneration {r : Report} (h : r.applied = none) (s : Settings)
    (operator : OperatorResource) (now : Instant) (old : OperatorStatus) :
    (r.status s operator now old).observedGeneration = old.observedGeneration := by
  simp [Report.status, h]

end Workload

namespace Collaborators

open Workload

variable {s : Settings} {σ : Type} (w : Collaborators s σ)

theorem applySecret_frame {x : Secret} {r : Int} (hx : objectRef x = snapshotRef s r) (a : σ) :
    (w.state (w.answer (.applySecret x) a).2).operator = (w.state a).operator ∧
      (w.state a).view.SameButSnapshot s r (w.state (w.answer (.applySecret x) a).2).view := by
  have hallowed := w.allowed (.applySecret x) a
  cases hanswer : (w.answer (.applySecret x) a).1 with
  | error e =>
    rw [w.state_of_failed (by rw [hanswer]; trivial)]
    exact ⟨rfl, .refl s r _⟩
  | ok changed =>
    simp only [Call.Allows, hanswer] at hallowed
    obtain ⟨m, hstate, hstores⟩ := hallowed
    rw [hstate]
    refine ⟨rfl, rfl, rfl, fun name hname => hstores.within?_of_ne ?_⟩
    rw [hx]
    exact hname

theorem takeSnapshot_frame (r : Int) (a : σ) :
    (w.state (w.after (takeSnapshot s r) a)).operator = (w.state a).operator ∧
      (w.state a).view.SameButSnapshot s r (w.state (w.after (takeSnapshot s r) a)).view := by
  simp only [takeSnapshot, after_bind, result_view]
  rw [← w.state_after_view a]
  generalize w.after view a = b
  cases hx : Rollout.snapshot? (w.state b).view s r with
  | none => exact ⟨rfl, .refl s r _⟩
  | some x =>
    have hframe := w.applySecret_frame (Rollout.snapshot?_eq_some hx).1 b
    simp only [after_bind]
    cases w.result (Program.ask (.applySecret x)) b <;> exact hframe

theorem applyPlan_of_error {operator : OperatorResource} {recorded : Option Int} {p : Plan} {a : σ} {e : Error}
    (h : w.result (applyPlan s operator recorded p) a = .error e) :
    w.state (w.after (applyPlan s operator recorded p) a) = w.state a := by
  simp only [applyPlan, result_bind, after_bind] at h ⊢
  rw [← w.state_after_view a]
  generalize Rollout.proxyEnv _ s = proxy at h ⊢
  generalize w.after view a = b at h ⊢
  generalize Rollout.deployment s _ _ _ proxy = d at h ⊢
  cases hx : w.result (Program.ask (.applyDeployment d recorded p.force)) b with
  | error x =>
    have hanswer : (w.answer (.applyDeployment d recorded p.force) b).1 = .error x := hx
    exact w.state_of_failed (by rw [hanswer]; trivial)
  | ok y =>
    obtain ⟨d', _ | _⟩ := y <;> simp [hx] at h

theorem carryOut_of_error {operator : OperatorResource} {recorded : Option Int} {p : Plan}
    {copied : Except Error Unit} {a : σ} {e : Error}
    (h : w.result (carryOut s operator recorded p copied) a = .error e) :
    w.state (w.after (carryOut s operator recorded p copied) a) = w.state a := by
  cases copied with
  | error x => rfl
  | ok u =>
    simp only [carryOut, result_bind, after_bind] at h ⊢
    cases hx : w.result (applyPlan s operator recorded p) a with
    | error x => exact w.applyPlan_of_error hx
    | ok d => simp [hx] at h

/-- A rollout that fails leaves a snapshot at most. -/
theorem execute_of_error {operator : OperatorResource} {recorded : Option Int} {p : Plan} {a : σ} {e : Error}
    (h : w.result (execute s operator recorded p) a = .error e) :
    (w.state (w.after (execute s operator recorded p) a)).operator = (w.state a).operator ∧
      (w.state a).view.SameButSnapshot s p.revision
        (w.state (w.after (execute s operator recorded p) a)).view := by
  unfold execute at h ⊢
  split at h
  · next hsame =>
    rw [if_pos hsame, w.carryOut_of_error h]
    exact ⟨rfl, .refl s p.revision _⟩
  · next hnew =>
    rw [result_bind] at h
    rw [if_neg hnew, after_bind, w.carryOut_of_error h]
    exact w.takeSnapshot_frame p.revision a

def Decides (a : σ) (p : Plan) : Prop :=
  ∃ operator changed errors, w.result (prepare s) a = .ready operator changed errors ∧
    p = plan (w.state (w.after (prepare s) a)).view s operator changed

variable {w} in
theorem Decides.isRollout {a : σ} {p : Plan} (h : w.Decides a p) {x : Step σ}
    (hx : x ∈ (cycle s).trace w.answer a) {d : Deployment} {expected : Option Int} {force : Bool}
    (hcall : x.call = .applyDeployment d expected force) :
    IsRollout s p (.applyDeployment d expected force) := by
  obtain ⟨operator, changed, errors, hready, rfl⟩ := h
  -- only the rollout applies a deployment, and it goes by the view that it is given
  have hrun : ((prepare s).run w.answer a).1 = .ready operator changed errors := hready
  rw [cycle_eq_prepare, Program.trace_bind, hrun, List.mem_append] at hx
  rcases hx with hx | hx
  · have hkind := (uses_prepare s).mem_trace w.answer hx
    rw [hcall] at hkind
    rcases hkind with hprerequisite | hreading
    · obtain ⟨m, hm⟩ | ⟨rendered, hm⟩ := hprerequisite.cases <;> simp at hm
    · exact hreading.elim
  · change x ∈ (resume s (.ready operator changed errors)).trace w.answer (w.after (prepare s) a) at hx
    generalize w.after (prepare s) a = b at hx ⊢
    have hview : (view.run w.answer b).1 = (w.state b).view := w.result_view b
    simp only [resume, rollOut_eq_execute, Program.trace_bind, Program.run_bind, List.mem_append, hview] at hx
    rcases hx with (hx | hx) | hx
    · obtain rfl := List.mem_singleton.1 hx
      simp at hcall
    · have hkind := (uses_execute s operator _ _).mem_trace w.answer hx
      rw [hcall] at hkind
      exact hkind
    · have hkind := (uses_conclude s operator errors _).mem_trace w.answer hx
      rw [hcall] at hkind
      exact (hkind.elim id id).elim

variable {w} in
theorem Decides.force_eq {a : σ} {p : Plan} (h : w.Decides a p) {x : Step σ}
    (hx : x ∈ (cycle s).trace w.answer a) {d : Deployment} {expected : Option Int} {force : Bool}
    (hcall : x.call = .applyDeployment d expected force) : force = p.force :=
  (h.isRollout hx hcall).1

end Collaborators

namespace Recorders

open Workload

variable {s : Settings} {σ : Type} (w : Recorders s σ)

theorem conclude_frame (operator : OperatorResource) (errors : List Error) (e : Error) (a : σ) :
    let b := w.after (conclude s operator errors (.error e)) a
    (w.state b).view = (w.state a).view ∧ (w.state b).operator.spec = (w.state a).operator.spec ∧
      (w.state b).operator.generation = (w.state a).operator.generation ∧
      (w.state b).operator.statusOrEmpty.observedGeneration =
        (w.state a).operator.statusOrEmpty.observedGeneration := by
  have hannounced : w.result (announce s errors (.error e)) a = (none, errors ++ [e]) := by simp [announce]
  simp only [conclude, Collaborators.after_bind, hannounced]
  rw [← w.state_after_reading (uses_announce s errors (.error e)) a]
  generalize w.after (announce s errors (.error e)) a = b
  rw [← w.state_after_reading (uses_assess s operator (none, errors ++ [e])) b]
  have happlied : (w.result (assess s operator (none, errors ++ [e])) b).applied = none := by simp [assess]
  generalize w.result (assess s operator (none, errors ++ [e])) b = report at happlied ⊢
  generalize w.after (assess s operator (none, errors ++ [e])) b = c
  have hframe := w.updateStatus_frame (report.status s operator)
    (Q := fun status => status.observedGeneration = (w.state c).operator.statusOrEmpty.observedGeneration)
    (fun now old hold => (status_observedGeneration happlied s operator now old).trans hold) c rfl
  rw [close_eq, Collaborators.after_bind]
  exact hframe

end Recorders

end RolloutControl
