import RolloutControl.Proofs.Effect.Update
import RolloutControl.Proofs.Workload.Ledger
import RolloutControl.Workload.Cycle
/-! What programs of the operator do, as far as rollouts are concerned: the copies and the rollouts that
they make, and the ledger that they leave. Only two kinds of calls do anything of the kind, and all others
keep the ledger except that a write of the status records a revision. -/

namespace RolloutControl

/-- What a cycle has brought about, or failed to copy. -/
inductive Deed
  | copied (x : Secret)
  | refused (x : Secret)
  /-- A deployment, and the ledger as it is at that moment. -/
  | rolledOut (d : Deployment) (l : Ledger)

namespace Collaborators

variable {s : Settings} {σ α β : Type} (w : Collaborators s σ)

def ledger (a : σ) : Ledger := (w.state a).ledger s

def deed? (x : Step σ) : Option Deed :=
  match x with
  | ⟨.applySecret secret, .ok _, _, _⟩ => some (.copied secret)
  | ⟨.applySecret secret, .error _, _, _⟩ => some (.refused secret)
  | ⟨.applyDeployment d _ _, .ok _, _, after⟩ => some (.rolledOut d (w.ledger after))
  | _ => none

def deeds (p : Program α) (a : σ) : List Deed := (p.trace w.answer a).filterMap w.deed?

@[simp] theorem deeds_pure (x : α) (a : σ) : w.deeds (pure x) a = [] := rfl

@[simp] theorem deeds_bind (p : Program α) (f : α → Program β) (a : σ) :
    w.deeds (p >>= f) a = w.deeds p a ++ w.deeds (f (w.result p a)) (w.after p a) := by
  simp [deeds, result, after]

theorem deeds_ask (c : Call) (a : σ) :
    w.deeds (Program.ask c) a = (w.deed? ⟨c, (w.answer c a).1, a, (w.answer c a).2⟩).toList := by
  cases h : w.deed? ⟨c, (w.answer c a).1, a, (w.answer c a).2⟩ <;> simp [deeds, h]

/-- A call that fails keeps the ledger. -/
theorem ledger_of_failed {c : Call} {a : σ} (h : c.Failed (w.answer c a).1) :
    w.ledger (w.answer c a).2 = w.ledger a := by
  rw [ledger, w.state_of_failed h, ledger]

/-- A call that neither copies nor rolls out anything. -/
def Bookkeeping : Call → Prop
  | .applySecret _ | .applyDeployment _ _ _ => False
  | _ => True

def Quiet : Call → Prop
  | .applySecret _ | .applyDeployment _ _ _ | .writeStatus _ _ => False
  | _ => True

theorem Reading.quiet {c : Call} (h : Reading c) : Quiet c := by
  cases c with
  | applySecret | applyDeployment | writeStatus => exact h.elim
  | _ => trivial

theorem Quiet.bookkeeping {c : Call} (h : Quiet c) : Bookkeeping c := by
  cases c with
  | applySecret | applyDeployment | writeStatus => exact h.elim
  | _ => trivial

theorem ledger_quiet (c : Call) (hc : Quiet c) (a : σ) : w.ledger (w.answer c a).2 = w.ledger a := by
  have h := w.allowed c a
  unfold ledger
  cases c with
  | applySecret | applyDeployment | writeStatus => exact hc.elim
  | writeSpec version spec =>
    cases hx : (w.answer (.writeSpec version spec) a).1 with
    | error e => simp only [Call.Allows, hx] at h; rw [h]
    | ok r =>
      simp only [Call.Allows, hx] at h
      obtain ⟨hview, hoperator, hstatus⟩ := h
      simp [ClusterState.ledger, OperatorResource.statusOrEmpty, hview, hoperator, hstatus]
  | getOperator =>
    cases hx : (w.answer .getOperator a).1 <;> simp only [Call.Allows, hx] at h
    · rw [h]
    · rw [h.2]
  | applyConfigMap cm =>
    cases hx : (w.answer (.applyConfigMap cm) a).1 <;> simp only [Call.Allows, hx] at h
    · rw [h]
    · obtain ⟨m, h⟩ := h
      rw [h]
      rfl
  | view => rw [h.2]
  | _ => simp only [Call.Allows] at h; rw [h]

theorem deeds_eq_nil {p : Program α} (hp : p.Uses Bookkeeping) (a : σ) : w.deeds p a = [] := by
  refine List.filterMap_eq_nil_iff.2 fun x hx => ?_
  have hbook := hp.mem_trace w.answer hx
  obtain ⟨c, answer, before, after⟩ := x
  cases c with
  | applySecret | applyDeployment => exact hbook.elim
  | _ => rfl

theorem deeds_quiet {p : Program α} (hp : p.Uses Quiet) (a : σ) : w.deeds p a = [] :=
  w.deeds_eq_nil (hp.mono fun _ => Quiet.bookkeeping) a

theorem ledger_after_quiet {p : Program α} (hp : p.Uses Quiet) (a : σ) :
    w.ledger (w.after p a) = w.ledger a :=
  hp.run_keeps w.answer w.ledger (fun c _ hc => w.ledger_quiet c hc _) a

theorem uses_view : view.Uses Quiet := Program.Uses.ask trivial

theorem uses_publish (e : Event) : (publish e).Uses Quiet := Program.Uses.ask trivial

@[simp] theorem ledger_after_view (a : σ) : w.ledger (w.after view a) = w.ledger a :=
  w.ledger_after_quiet uses_view a

@[simp] theorem deeds_view (a : σ) : w.deeds view a = [] := rfl

theorem applySecret_ok {x : Secret} {r : Int} {a : σ} (hx : objectRef x = snapshotRef s r)
    {changed : Bool} (h : w.result (Program.ask (.applySecret x)) a = .ok changed) :
    w.deeds (Program.ask (.applySecret x)) a = [.copied x] ∧
      w.ledger (w.after (Program.ask (.applySecret x)) a) = (w.ledger a).hold r x.contents := by
  have hanswer : (w.answer (.applySecret x) a).1 = .ok changed := h
  have hallowed := w.allowed (.applySecret x) a
  simp only [Call.Allows, hanswer] at hallowed
  obtain ⟨m, hstate, hstores⟩ := hallowed
  refine ⟨by rw [deeds_ask, hanswer]; rfl, ?_⟩
  rw [after_ask, ledger, hstate]
  exact ledger_stores hstores hx

theorem applySecret_error {x : Secret} {a : σ} {e : Error}
    (h : w.result (Program.ask (.applySecret x)) a = .error e) :
    w.deeds (Program.ask (.applySecret x)) a = [.refused x] ∧
      w.ledger (w.after (Program.ask (.applySecret x)) a) = w.ledger a := by
  have hanswer : (w.answer (.applySecret x) a).1 = .error e := h
  exact ⟨by rw [deeds_ask, hanswer]; rfl, w.ledger_of_failed (by rw [hanswer]; trivial)⟩

theorem applyDeployment_ok {d d' : Deployment} {expected : Option Int} {force changed : Bool} {a : σ}
    (hd : objectRef d = deploymentRef s)
    (h : w.result (Program.ask (.applyDeployment d expected force)) a = .ok (d', changed)) :
    w.deeds (Program.ask (.applyDeployment d expected force)) a =
        [.rolledOut d ((w.ledger a).run (Carried.ofDeployment s d))] ∧
      w.ledger (w.after (Program.ask (.applyDeployment d expected force)) a) =
        (w.ledger a).run (Carried.ofDeployment s d) := by
  have hanswer : (w.answer (.applyDeployment d expected force) a).1 = .ok (d', changed) := h
  have hallowed := w.allowed (.applyDeployment d expected force) a
  simp only [Call.Allows, hanswer] at hallowed
  obtain ⟨m, hstate, hrealized⟩ := hallowed
  obtain ⟨hfound, hlabels, hdependencies⟩ := hrealized hd
  have hledger : w.ledger (w.after (Program.ask (.applyDeployment d expected force)) a) =
      (w.ledger a).run (Carried.ofDeployment s d) := by
    rw [hstate] at hfound
    rw [after_ask, ledger, hstate]
    simp only [ClusterState.ledger, hfound, Option.map_some]
    simp [Ledger.run, ledger, ClusterState.ledger, Carried.ofDeployment, hlabels, hdependencies,
      ClusterView.secret?]
  refine ⟨?_, hledger⟩
  rw [deeds_ask, hanswer, ← hledger]
  rfl

theorem applyDeployment_error {d : Deployment} {expected : Option Int} {force : Bool} {a : σ}
    {e : Error} (h : w.result (Program.ask (.applyDeployment d expected force)) a = .error e) :
    w.deeds (Program.ask (.applyDeployment d expected force)) a = [] ∧
      w.ledger (w.after (Program.ask (.applyDeployment d expected force)) a) = w.ledger a := by
  have hanswer : (w.answer (.applyDeployment d expected force) a).1 = .error e := h
  exact ⟨by rw [deeds_ask, hanswer]; rfl, w.ledger_of_failed (by rw [hanswer]; trivial)⟩

theorem writeStatus_ok {version : String} {status : OperatorStatus} {a : σ}
    {stored : OperatorResource} (h : w.result (Program.ask (.writeStatus version status)) a = .ok stored) :
    w.ledger (w.after (Program.ask (.writeStatus version status)) a) =
      (w.ledger a).record status.latestRevision := by
  have hanswer : (w.answer (.writeStatus version status) a).1 = .ok stored := h
  have hallowed := w.allowed (.writeStatus version status) a
  simp only [Call.Allows, hanswer] at hallowed
  obtain ⟨hview, hoperator, hstatus⟩ := hallowed
  rw [after_ask]
  simp [ledger, ClusterState.ledger, Ledger.record, OperatorResource.statusOrEmpty, hview, hoperator,
    hstatus]

theorem writeStatus_error {version : String} {status : OperatorStatus} {a : σ} {e : Error}
    (h : w.result (Program.ask (.writeStatus version status)) a = .error e) :
    w.ledger (w.after (Program.ask (.writeStatus version status)) a) = w.ledger a := by
  have hanswer : (w.answer (.writeStatus version status) a).1 = .error e := h
  exact w.ledger_of_failed (by rw [hanswer]; trivial)

/-- Bookkeeping changes nothing but the recorded revision. -/
theorem ledger_bookkeeping (c : Call) (hc : Bookkeeping c) (a : σ) :
    ∃ n, w.ledger (w.answer c a).2 = (w.ledger a).record n := by
  by_cases hquiet : Quiet c
  · exact ⟨(w.ledger a).latest, w.ledger_quiet c hquiet a⟩
  · cases c with
    | writeStatus version status =>
      cases hx : w.result (Program.ask (.writeStatus version status)) a with
      | error e => exact ⟨(w.ledger a).latest, w.writeStatus_error hx⟩
      | ok stored => exact ⟨status.latestRevision, w.writeStatus_ok hx⟩
    | applySecret | applyDeployment => exact hc.elim
    | _ => exact absurd trivial hquiet

theorem ledger_after_bookkeeping {p : Program α} (hp : p.Uses Bookkeeping) (a : σ) :
    w.ledger (w.after p a) = (w.ledger a).record (w.ledger (w.after p a)).latest := by
  have hkeeps := hp.run_keeps w.answer (fun b => (w.ledger b).record 0)
    (fun c b hc => by
      obtain ⟨n, hn⟩ := w.ledger_bookkeeping c hc b
      rw [hn]
      rfl) a
  obtain ⟨-, hsource, hheld, hrunning⟩ := Ledger.mk.inj hkeeps
  simp only [Ledger.record, after, ← hsource, ← hheld, ← hrunning]

theorem statusOrEmpty_latest {a : σ} {current : OperatorResource}
    (h : (w.answer .getOperator a).1 = .ok current) :
    current.statusOrEmpty.latestRevision = (w.ledger a).latest := by
  rw [w.eq_of_getOperator h]
  rfl

theorem updateStatus_latest {P : Int → Prop} {change : Instant → OperatorStatus → OperatorStatus}
    (hchange : ∀ now old, P old.latestRevision → P (change now old).latestRevision) (a : σ)
    (ha : P (w.ledger a).latest) : P (w.ledger (w.after (updateStatus change) a)).latest := by
  refine w.updateStatus_keeps (P := fun b => P (b.ledger s).latest) (fun now version b stored hb hok => ?_) a ha
  have hrecorded := congrArg Ledger.latest (w.writeStatus_ok hok)
  exact hrecorded ▸ hchange now _ hb

theorem bookkeeping_updateStatus (change : Instant → OperatorStatus → OperatorStatus) :
    (updateStatus change).Uses Bookkeeping := by
  refine (uses_updateStatus change).mono fun c hc => ?_
  rcases hc with hreading | hwrite
  · exact hreading.quiet.bookkeeping
  · cases c with
    | applySecret | applyDeployment => exact hwrite.elim
    | _ => trivial

theorem ledger_after_updateStatus {P : Int → Prop} (change : Instant → OperatorStatus → OperatorStatus)
    (hchange : ∀ now old, P old.latestRevision → P (change now old).latestRevision) (a : σ)
    (ha : P (w.ledger a).latest) :
    ∃ n, P n ∧ w.ledger (w.after (updateStatus change) a) = (w.ledger a).record n := by
  have hlatest := w.updateStatus_latest hchange a ha
  have hledger := w.ledger_after_bookkeeping (bookkeeping_updateStatus change) a
  exact ⟨_, hlatest, hledger⟩

theorem deeds_updateStatus (change : Instant → OperatorStatus → OperatorStatus) (a : σ) :
    w.deeds (updateStatus change) a = [] :=
  w.deeds_eq_nil (bookkeeping_updateStatus change) a

end Collaborators

end RolloutControl
