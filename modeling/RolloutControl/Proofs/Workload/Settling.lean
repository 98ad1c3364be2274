import RolloutControl.Proofs.Workload.Reports
/-! What a cycle leaves that completes: the operand is settled, so nothing asks for another rollout, and it
stands as it is wanted at the recorded revision. -/

namespace RolloutControl

namespace Keepers

open Workload

variable {s : Settings} {σ α : Type} (w : Keepers s σ)

section Accomplished
variable {w} {a : σ} {p : Plan} {d : Deployment} (h : w.Accomplishes a p d)

include h

theorem Accomplishes.configMaps : (w.state (w.after (cycle s) a)).view.configMaps =
    (w.state (w.after (prepare s) a)).view.configMaps := by
  rw [h.view]

theorem Accomplishes.apiServices : (w.state (w.after (cycle s) a)).view.apiServices =
    (w.state a).view.apiServices := by
  obtain ⟨m, hframe⟩ := w.prepare_frame a
  rw [h.view, hframe]

theorem Accomplishes.secret? {name : String} (hname : name ≠ Rollout.snapshotName s p.revision) :
    (w.state (w.after (cycle s) a)).view.secret? s.targetSpace name =
      (w.state (w.after (prepare s) a)).view.secret? s.targetSpace name := by
  have hsecrets := h.secrets
  split at hsecrets
  · rw [ClusterView.secret?, hsecrets, ClusterView.secret?]
  · rcases hsecrets with ⟨-, hsame⟩ | ⟨x, hx, hstores⟩
    · rw [ClusterView.secret?, hsame, ClusterView.secret?]
    · apply hstores.within?_of_ne
      rw [(Rollout.snapshot?_eq_some hx).1]
      exact hname

theorem Accomplishes.digests : p.digests = Rollout.dependencies (w.state (w.after (prepare s) a)).view s := by
  obtain ⟨changed, -, rfl⟩ := h.planned
  rfl

theorem Accomplishes.dependencies (hfree : ∀ r, Rollout.snapshotName s r ∉ s.objects.dependencySecrets) :
    Rollout.dependencies (w.state (w.after (cycle s) a)).view s = p.digests := by
  rw [h.digests]
  apply Rollout.dependencies_congr h.configMaps
  intro name hname
  apply h.secret?
  intro he
  exact hfree p.revision (he ▸ hname)

theorem Accomplishes.proxyEnv : Rollout.proxyEnv (w.state (w.after (cycle s) a)).view s =
    Rollout.proxyEnv (w.state (w.after (prepare s) a)).view s := by
  rw [Rollout.proxyEnv, ClusterView.configMap?, h.configMaps, Rollout.proxyEnv, ClusterView.configMap?]

theorem Accomplishes.recorded : Rollout.recordedDependencies d = p.digests := by
  rw [h.matched.recordedDependencies, Plan.wanted, Rollout.recordedDependencies_deployment]

theorem Accomplishes.latest :
    (w.state (w.after (cycle s) a)).operator.statusOrEmpty.latestRevision = p.revision := by
  obtain ⟨now, hstatus⟩ := h.status
  rw [hstatus, successReport_latestRevision]

theorem Accomplishes.observed : (w.state (w.after (cycle s) a)).operator.generation =
    (w.state (w.after (cycle s) a)).operator.statusOrEmpty.observedGeneration := by
  obtain ⟨now, hstatus⟩ := h.status
  rw [hstatus, successReport_observedGeneration, h.generation]
  split
  · rfl
  · next hnone =>
    -- a deployment without a generation has not been forced, so the generation was observed before
    by_contra hne
    obtain ⟨changed, -, hp⟩ := h.planned
    have hforce : p.force = true := by
      rw [hp, plan_force]
      exact .inl hne
    exact hnone (h.generated hforce)

end Accomplished

/-- Nothing asks for another rollout. -/
structure Settled (a : σ) : Prop where
  deployable : Deployable (w.state a).operator.spec
  observed : (w.state a).operator.generation = (w.state a).operator.statusOrEmpty.observedGeneration
  inPlace : ∀ c ∈ prerequisites s (w.state a).operator.spec, w.inPlace c a
  current : ∃ d, (w.state a).view.deployment? s = some d ∧
    Rollout.recordedDependencies d = Rollout.dependencies (w.state a).view s

theorem settled_of_completes (hfree : ∀ r, Rollout.snapshotName s r ∉ s.objects.dependencySecrets) {a : σ}
    (hdeployable : Deployable (w.state a).operator.spec) (h : w.Completes (cycle s) a) :
    w.Settled (w.after (cycle s) a) := by
  obtain ⟨p, d, hdone⟩ := w.accomplishes_of_completes hdeployable h
  have hspec := hdone.spec
  refine ⟨by rw [hspec]; exact hdeployable, hdone.observed, fun c hc => ?_, d, hdone.found, ?_⟩
  · rw [hspec] at hc
    exact w.inPlace_of_completes hdeployable h hc
  · rw [hdone.recorded, hdone.dependencies hfree]

section Settled
variable {w} {a : σ} (h : w.Settled a)

include h

theorem Settled.prepared (hread : w.result (Program.ask .getOperator) a = .ok (w.state a).operator) :
    (∀ c, ¬w.Alters (prepare s) a c) ∧ w.state (w.after (prepare s) a) = w.state a := by
  have hasked : w.state (w.after (Program.ask .getOperator) a) = w.state a :=
    w.state_reading (c := .getOperator) trivial a
  have hunaltered : ∀ c, ¬w.Alters (applyPrerequisites s (w.state a).operator.spec)
      (w.after (Program.ask .getOperator) a) c := by
    intro c haltered
    have hc := w.mem_prerequisites_of_alters haltered
    have hin : w.inPlace c (w.after (Program.ask .getOperator) a) :=
      w.inPlace_after ⟨_, hc⟩ (.ask id) (h.inPlace c hc)
    exact w.not_alters_of_inPlace hc hin haltered
  constructor
  · intro c haltered
    exact hunaltered c ((w.alters_prepare hread h.deployable).1 haltered)
  · obtain ⟨-, hafter, -⟩ := w.prepare_of_deployable hread h.deployable
    rw [hafter, w.state_of_unaltered hunaltered, hasked]

theorem Settled.unchanged (hread : w.result (Program.ask .getOperator) a = .ok (w.state a).operator)
    {changed : Bool} (hchanged : changed = true ↔ ∃ c, w.Alters (prepare s) a c) : changed = false := by
  obtain ⟨hunaltered, -⟩ := h.prepared hread
  rw [Bool.eq_false_iff]
  intro htrue
  obtain ⟨c, hc⟩ := hchanged.1 htrue
  exact hunaltered c hc

theorem Settled.outdated : Rollout.outdated (w.state a).view s = [] := by
  obtain ⟨d, hd, hrecorded⟩ := h.current
  rw [Rollout.outdated, hd, Option.map_some, Option.getD_some, hrecorded]
  exact Dependencies.changedFrom_eq_nil.2 rfl

theorem Settled.plan_force : (plan (w.state a).view s (w.state a).operator false).force = false := by
  rw [Bool.eq_false_iff, ne_eq, Workload.plan_force, h.outdated]
  simp [h.observed]

/-- A settled operand is rolled out again at the recorded revision, or at the first one. -/
theorem Settled.plan_revision : (plan (w.state a).view s (w.state a).operator false).revision =
    if (w.state a).operator.statusOrEmpty.latestRevision = 0 then 1
    else (w.state a).operator.statusOrEmpty.latestRevision := by
  have hforce := h.plan_force
  simp only [plan] at hforce ⊢
  rw [hforce]
  by_cases hzero : (w.state a).operator.statusOrEmpty.latestRevision = 0 <;> simp [hzero]

theorem Settled.accomplishes {p : Plan} {d : Deployment} (hdone : w.Accomplishes a p d) :
    w.state (w.after (prepare s) a) = w.state a ∧ p = plan (w.state a).view s (w.state a).operator false := by
  obtain ⟨-, hprepared⟩ := h.prepared hdone.read
  obtain ⟨changed, hchanged, hp⟩ := hdone.planned
  rw [hprepared, h.unchanged hdone.read hchanged] at hp
  exact ⟨hprepared, hp⟩

end Settled

def wanted (a : σ) : Deployment :=
  Rollout.deployment s (w.state a).operator.spec.logLevel (w.state a).operator.statusOrEmpty.latestRevision
    (Rollout.dependencies (w.state a).view s) (Rollout.proxyEnv (w.state a).view s)

/-- A settled operand that is as it is wanted. -/
structure Standing (a : σ) : Prop extends w.Settled a where
  deployed : ∃ d, (w.state a).view.deployment? s = some d ∧ d.Matches (w.wanted a)

theorem standing_of_completes (hfree : ∀ r, Rollout.snapshotName s r ∉ s.objects.dependencySecrets) {a : σ}
    (hdeployable : Deployable (w.state a).operator.spec) (h : w.Completes (cycle s) a) :
    w.Standing (w.after (cycle s) a) := by
  obtain ⟨p, d, hdone⟩ := w.accomplishes_of_completes hdeployable h
  have hmatched := hdone.matched
  rw [Plan.wanted] at hmatched
  refine ⟨w.settled_of_completes hfree hdeployable h, d, hdone.found, ?_⟩
  rw [wanted, hdone.spec, hdone.latest, hdone.dependencies hfree, hdone.proxyEnv]
  exact hmatched

/-- The plan for such an operand is to roll out the recorded revision as it is wanted, without force. -/
theorem Standing.plan_eq {w : Keepers s σ} {a : σ} (h : w.Standing a)
    (hlatest : (w.state a).operator.statusOrEmpty.latestRevision ≠ 0) :
    let p := plan (w.state a).view s (w.state a).operator false
    p.force = false ∧ p.revision = (w.state a).operator.statusOrEmpty.latestRevision ∧
      p.wanted s (w.state a).operator.spec (w.state a).view = w.wanted a := by
  have hrevision := h.plan_revision
  have hdigests := plan_digests (w.state a).view s (w.state a).operator false
  rw [if_neg hlatest] at hrevision
  refine ⟨h.plan_force, hrevision, ?_⟩
  rw [Plan.wanted, hrevision, hdigests, wanted]

end Keepers

end RolloutControl
