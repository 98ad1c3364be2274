import RolloutControl.Proofs.Observe.Tending
import RolloutControl.Proofs.Workload.Idempotence
/-! Cycles of the workload among others. A cycle that completes keeps the snapshots in step with the revision on
record; one that finds nothing to deploy leaves things as they are; and one that finds the operand standing at a
revision writes nothing but the status. -/

namespace RolloutControl

/-- The snapshot of the revision on record holds the encryption configuration, and later ones are still to come. -/
structure Ledger.InStep (l : Ledger) : Prop where
  current : l.latest ≠ 0 → l.held l.latest = l.source
  fresh : ∀ q, l.latest < q → l.held q = none

/-- The call writes neither the spec nor a secret, and the deployment stays as it is. -/
def Call.Spares : (c : Call) → c.Answer → Prop
  | .writeSpec _ _, _ | .applySecret _, _ => False
  | .applyDeployment _ _ _, x => ∃ d, x = .ok (d, false)
  | .view, _ | .clock, _ | .getOperator, _ | .writeStatus _ _, _ | .applyManifest _, _ => True
  | .applyConfigMap _, _ | .probe _, _ | .publish _, _ | .sleep _, _ => True

theorem Call.Idle.spares {c : Call} {x : c.Answer} (h : c.Idle x) : c.Spares x := by
  cases c with
  | writeSpec | applySecret => exact h.elim
  | applyDeployment => exact h.2
  | _ => trivial

theorem spares_of_tends {c : Call} (hc : Observer.Tends c) (hwrite : ¬c.IsSpecWrite) (x : c.Answer) :
    c.Spares x := by
  rcases hc with hreading | hspec | hstatus
  · cases c with
    | writeSpec | applySecret | applyDeployment => exact hreading.elim
    | _ => trivial
  · exact absurd hspec hwrite
  · cases c with
    | writeStatus => trivial
    | _ => exact hstatus.elim

theorem spares_of_reports {c : Call} (hc : Collaborators.Reading c ∨ c.IsStatusWrite) (x : c.Answer) :
    c.Spares x := by
  apply spares_of_tends (hc.imp_right .inr)
  intro hwrite
  cases c with
  | writeSpec => exact hc.elim id id
  | _ => exact hwrite.elim

theorem Workload.IsPrerequisite.spares {s : Settings} {c : Call} (h : IsPrerequisite s c) (x : c.Answer) :
    c.Spares x := by
  obtain ⟨m, rfl⟩ | ⟨rendered, rfl⟩ := h.cases <;> trivial

namespace Recorders

open Workload

variable {s : Settings} {σ : Type} (w : Recorders s σ)

theorem spares_prepare {a : σ} {x : Step σ} (hx : x ∈ (prepare s).trace w.answer a) : x.call.Spares x.answer := by
  rcases (uses_prepare s).mem_trace w.answer hx with hprerequisite | hreading
  · exact hprerequisite.spares _
  · exact spares_of_reports (.inl hreading) _

theorem prepare_of_not_deployable {a : σ} (h : ¬Deployable (w.state a).operator.spec) :
    w.state (w.after (prepare s) a) = w.state a ∧
      ∀ operator changed errors, w.result (prepare s) a ≠ .ready operator changed errors := by
  have hasked : w.state (w.after (Program.ask .getOperator) a) = w.state a :=
    w.state_reading (c := .getOperator) trivial a
  constructor
  · simp only [prepare, Collaborators.after_bind]
    cases hx : w.result (Program.ask .getOperator) a with
    | error e => exact hasked
    | ok operator =>
      obtain rfl := w.eq_of_getOperator hx
      simp only [prepareWith]
      split
      · exact hasked
      · next hmanaged =>
        split
        · exact hasked
        · next d hd =>
          split
          · exact hasked
          · next hempty => exact absurd ⟨Decidable.of_not_not hmanaged, d, hd, by simpa using hempty⟩ h
  · intro operator changed errors hready
    obtain ⟨hread, hdeployable⟩ := w.deployable_of_ready hready
    obtain rfl := w.eq_of_getOperator hread
    exact h hdeployable

theorem resume_of_not_ready {p : Preparation} (hp : ∀ operator changed errors, p ≠ .ready operator changed errors)
    (b : σ) :
    (resume s p).Uses (fun c => Collaborators.Reading c ∨ c.IsStatusWrite) ∧
      (w.state (w.after (resume s p) b)).operator.spec = (w.state b).operator.spec ∧
      (w.state (w.after (resume s p) b)).operator.statusOrEmpty.latestRevision =
        (w.state b).operator.statusOrEmpty.latestRevision := by
  cases p with
  | failed | unmanaged => exact ⟨.pure _, rfl, rfl⟩
  | ready operator changed errors => exact absurd rfl (hp operator changed errors)
  | waiting =>
    refine ⟨uses_waitForConfig s, ?_⟩
    simp only [resume, waitForConfig, Collaborators.after_bind]
    generalize hchange : (fun (_ : Instant) (_ : OperatorStatus) => _) = change
    obtain ⟨-, hspec, -, hlatest⟩ := w.updateStatus_frame change
      (Q := fun status => status.latestRevision = (w.state b).operator.statusOrEmpty.latestRevision)
      (by subst hchange; exact fun now old hold => hold) b rfl
    cases w.result (updateStatus change) b <;> exact ⟨hspec, hlatest⟩

/-- As long as there is nothing to deploy, a cycle leaves everything but the conditions as it is. -/
theorem cycle_of_not_deployable {a : σ} (h : ¬Deployable (w.state a).operator.spec) :
    (∀ x ∈ (cycle s).trace w.answer a, x.call.Spares x.answer) ∧
      (w.state (w.after (cycle s) a)).view = (w.state a).view ∧
      (w.state (w.after (cycle s) a)).operator.spec = (w.state a).operator.spec ∧
      (w.state (w.after (cycle s) a)).operator.statusOrEmpty.latestRevision =
        (w.state a).operator.statusOrEmpty.latestRevision := by
  obtain ⟨hprepared, hunready⟩ := w.prepare_of_not_deployable h
  obtain ⟨huses, hspec, hlatest⟩ := w.resume_of_not_ready hunready (w.after (prepare s) a)
  have hview := huses.run_keeps w.answer (fun b => (w.state b).view)
    (fun c b hc => Observer.view_of_tends w (hc.imp_right .inr) b) (w.after (prepare s) a)
  have hafter : w.after (cycle s) a = w.after (resume s (w.result (prepare s) a)) (w.after (prepare s) a) := by
    rw [cycle_eq_prepare, Collaborators.after_bind]
  rw [hprepared] at hspec hlatest
  rw [hafter]
  refine ⟨fun x hx => ?_, hview.trans (congrArg ClusterState.view hprepared), hspec, hlatest⟩
  rw [cycle_eq_prepare, Program.trace_bind] at hx
  rcases List.mem_append.1 hx with hx | hx
  · exact w.spares_prepare hx
  · exact spares_of_reports (huses.mem_trace w.answer hx) _

end Recorders

namespace Keepers

open Workload

variable {s : Settings} {σ : Type} (w : Keepers s σ)

section Accomplished
variable {w} {a : σ} {p : Plan} {d : Deployment} (h : w.Accomplishes a p d)

include h

theorem Accomplishes.revision_cases :
    p.revision = (w.ledger a).latest ∧ (w.ledger a).latest ≠ 0 ∨ p.revision = (w.ledger a).latest + 1 := by
  obtain ⟨changed, -, rfl⟩ := h.planned
  simp only [plan]
  split
  · exact .inr rfl
  · next hnone =>
    left
    refine ⟨rfl, fun hzero => hnone ?_⟩
    rw [Bool.or_eq_true, decide_eq_true_eq]
    exact .inr hzero

theorem Accomplishes.secret?_kept {name : String} (hname : name ≠ Rollout.snapshotName s p.revision) :
    (w.state (w.after (cycle s) a)).view.secret? s.targetSpace name =
      (w.state a).view.secret? s.targetSpace name := by
  obtain ⟨m, hframe⟩ := w.prepare_frame a
  rw [h.secret? hname, hframe]
  rfl

theorem Accomplishes.source : (w.ledger (w.after (cycle s) a)).source = (w.ledger a).source :=
  congrArg (Option.map Secret.contents) (h.secret?_kept (prefix_ne_snapshotName s p.revision))

theorem Accomplishes.held_of_ne {q : Int} (hq : q ≠ p.revision) :
    (w.ledger (w.after (cycle s) a)).held q = (w.ledger a).held q :=
  congrArg (Option.map Secret.contents) (h.secret?_kept fun he => hq (snapshotName_injective he))

theorem Accomplishes.held_again (hagain : p.revision = (w.ledger a).latest) :
    (w.ledger (w.after (cycle s) a)).held p.revision = (w.ledger a).held p.revision := by
  obtain ⟨m, hframe⟩ := w.prepare_frame a
  have hsame : p.revision = (w.state a).operator.statusOrEmpty.latestRevision := hagain
  have hsecrets := h.secrets
  rw [if_pos hsame, hframe] at hsecrets
  simp only [Collaborators.ledger, ClusterState.ledger, ClusterView.secret?, hsecrets]

/-- The snapshot of a new revision is a copy, if there is anything to be copied. -/
theorem Accomplishes.held_new (hnew : p.revision ≠ (w.ledger a).latest)
    (hfresh : (w.ledger a).held p.revision = none) :
    (w.ledger (w.after (cycle s) a)).held p.revision = (w.ledger a).source := by
  obtain ⟨m, hframe⟩ := w.prepare_frame a
  have hother : p.revision ≠ (w.state a).operator.statusOrEmpty.latestRevision := hnew
  have hsecrets := h.secrets
  rw [if_neg hother, hframe] at hsecrets
  rcases hsecrets with ⟨hnone, hsame⟩ | ⟨x, hx, hstores⟩
  · have hmissing : (w.state a).view.secret? s.targetSpace s.encryption.secretPrefix = none :=
      Rollout.snapshot?_eq_none.1 hnone
    have hsource : (w.ledger a).source = none := congrArg (Option.map Secret.contents) hmissing
    rw [hsource, ← hfresh]
    simp only [Collaborators.ledger, ClusterState.ledger, ClusterView.secret?, hsame]
  · obtain ⟨href, hsource⟩ := Rollout.snapshot?_eq_some hx
    obtain ⟨y, hy, hcontents⟩ := hstores.found s.targetSpace (by rw [href]; rfl)
    rw [show (objectRef x).name = Rollout.snapshotName s p.revision by rw [href]; rfl] at hy
    change ((w.state (w.after (cycle s) a)).view.secret? s.targetSpace _).map Secret.contents = _
    rw [ClusterView.secret?, hy, Option.map_some, hcontents]
    exact hsource.symm

theorem Accomplishes.inStep (hl : (w.ledger a).InStep) : (w.ledger (w.after (cycle s) a)).InStep := by
  have hlatest : (w.ledger (w.after (cycle s) a)).latest = p.revision := h.latest
  have hcases := h.revision_cases
  constructor
  · intro _
    rw [hlatest, h.source]
    rcases hcases with ⟨hagain, hsome⟩ | hnew
    · rw [h.held_again hagain, hagain]
      exact hl.current hsome
    · apply h.held_new
      · omega
      · apply hl.fresh
        omega
  · intro q hq
    rw [hlatest] at hq
    rw [h.held_of_ne (by omega)]
    apply hl.fresh
    omega

end Accomplished

section Standing
variable {w} {a b : σ} (h : w.Standing a)

include h

/-- An operand that stands goes on standing while nothing but pods, documents and conditions change. -/
theorem Standing.of_same (hspec : (w.state b).operator.spec = (w.state a).operator.spec)
    (hgeneration : (w.state b).operator.generation = (w.state a).operator.generation)
    (hobserved : (w.state b).operator.statusOrEmpty.observedGeneration =
      (w.state a).operator.statusOrEmpty.observedGeneration)
    (hlatest : (w.state b).operator.statusOrEmpty.latestRevision =
      (w.state a).operator.statusOrEmpty.latestRevision)
    (hview : ∃ pods, (w.state b).view = { (w.state a).view with pods })
    (hplaced : ∀ c, IsPrerequisite s c → w.inPlace c a → w.inPlace c b) : w.Standing b := by
  obtain ⟨pods, hview⟩ := hview
  refine ⟨⟨?_, ?_, ?_, ?_⟩, ?_⟩
  · rw [hspec]
    exact h.deployable
  · rw [hgeneration, hobserved]
    exact h.observed
  · rw [hspec]
    exact fun c hc => hplaced c ⟨_, hc⟩ (h.inPlace c hc)
  · rw [hview]
    exact h.current
  · simp only [wanted, hspec, hlatest, hview]
    exact h.deployed

theorem Standing.answers_of_manages (hlatest : (w.state a).operator.statusOrEmpty.latestRevision ≠ 0)
    (hstate : w.state b = w.state a) {recorded : Option Int}
    (hmanages : w.Manages (rollOut s (w.state a).operator false recorded) b) :
    w.Answers (w.after view (w.after view b)) (.applyDeployment (w.wanted a) recorded false) := by
  obtain ⟨hforce, hrevision, hwanted⟩ := h.plan_eq hlatest
  have hlooked : w.state (w.after view b) = w.state a := by rw [w.state_after_view, hstate]
  rw [rollOut_eq_execute, Collaborators.manages_bind, w.result_view, hstate] at hmanages
  obtain ⟨-, hexecutes⟩ := hmanages
  generalize plan (w.state a).view s (w.state a).operator false = p at hforce hrevision hwanted hexecutes
  rw [show (w.state a).view = (w.state (w.after view b)).view by rw [hlooked]] at hwanted
  rw [execute, if_pos hrevision, carryOut, Collaborators.manages_bind] at hexecutes
  have happlies := hexecutes.1
  rw [applyPlan_eq_deploy, Collaborators.manages_bind, w.result_view, hwanted, deploy,
    Collaborators.manages_bind, hforce] at happlies
  exact w.not_failed_of_manages (c := .applyDeployment (w.wanted a) recorded false) id happlies.2.1

/-- A cycle that completes spares an operand that stands. -/
theorem Standing.spares_cycle (hlatest : (w.state a).operator.statusOrEmpty.latestRevision ≠ 0)
    (hcompletes : w.Completes (cycle s) a) :
    (∀ x ∈ (cycle s).trace w.answer a, x.call.Spares x.answer) ∧
      (w.state (w.after (cycle s) a)).view = (w.state a).view ∧
      (w.state (w.after (cycle s) a)).operator.statusOrEmpty.latestRevision =
        (w.state a).operator.statusOrEmpty.latestRevision := by
  obtain ⟨p, d, hdone⟩ := w.accomplishes_of_completes h.deployable hcompletes
  obtain ⟨hprepares, hresumes⟩ := w.prepare_of_completes hcompletes
  obtain ⟨changed, hready⟩ := w.prepare_of_manages h.deployable hprepares
  obtain ⟨hprepared, hp⟩ := h.accomplishes hdone
  obtain rfl := h.unchanged hdone.read (w.changed_iff_alters hready)
  have hrun : ((prepare s).run w.answer a).1 =
      .ready (w.state a).operator false (renderErrors (w.state a).operator.spec) := hready
  have hafter : ((prepare s).run w.answer a).2 = w.after (prepare s) a := rfl
  rw [hready] at hresumes
  obtain ⟨hmanages, -⟩ := w.rollOut_of_completes hresumes
  obtain ⟨d', -, hdeploys⟩ := h.deploys_rollOut hlatest hprepared (h.answers_of_manages hlatest hprepared hmanages)
  have hrests := hdeploys.rests
  refine ⟨fun x hx => ?_, ?_, ?_⟩
  · rw [cycle_eq_prepare, Program.trace_bind, hrun, hafter, resume, Program.trace_bind] at hx
    rcases List.mem_append.1 hx with hx | hx
    · exact w.spares_prepare hx
    · rcases List.mem_append.1 hx with hx | hx
      · exact (hrests.idle x hx).spares
      · exact spares_of_reports ((uses_conclude s _ _ _).mem_trace w.answer hx) _
  · rw [cycle_eq_prepare, Collaborators.after_bind, hready, resume, Collaborators.after_bind]
    have hconcluded := (uses_conclude s (w.state a).operator (renderErrors (w.state a).operator.spec)
      (w.result (rollOut s (w.state a).operator false (recordedGeneration s (w.state a).operator))
        (w.after (prepare s) a))).run_keeps w.answer (fun b => (w.state b).view)
      (fun c b hc => Observer.view_of_tends w.toRecorders (hc.imp_right .inr) b)
    refine (hconcluded _).trans ?_
    rw [hrests.state, hprepared]
  · rw [hdone.latest, hp, h.plan_revision, if_neg hlatest]

end Standing

end Keepers

end RolloutControl
