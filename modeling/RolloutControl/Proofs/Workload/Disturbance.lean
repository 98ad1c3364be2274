import RolloutControl.Proofs.Simulation.Health
import RolloutControl.Proofs.Workload.Settling
/-! A settled operand whose dependencies change. The next cycle rolls it out at a new revision, and the one after
that leaves it alone. -/

namespace RolloutControl

namespace Collaborators

open Workload

variable {s : Settings} {σ : Type} (w : Collaborators s σ)

/-- No copy of the encryption configuration is refused in the cycle that begins here. -/
def Copies (a : σ) : Prop :=
  ∀ x ∈ (cycle s).trace w.answer a, ∀ y, x.call = .applySecret y → ¬x.call.Failed x.answer

/-- The cycle that begins here applies the deployment of this revision, and forces its rollout or not. It applies
no other, and this one unless it fails to copy the encryption configuration. -/
structure RollsOut (a : σ) (force : Bool) (r : Int) : Prop where
  only : ∀ x ∈ (cycle s).trace w.answer a, ∀ d expected f, x.call = .applyDeployment d expected f →
    f = force ∧ ∃ logLevel digests proxy, d = Rollout.deployment s logLevel r digests proxy
  applies : w.Copies a → ∃ x ∈ (cycle s).trace w.answer a, ∃ d expected, x.call = .applyDeployment d expected force

theorem copies_of_completes {a : σ} (h : w.Completes (cycle s) a) : w.Copies a := by
  intro x hx y hcall hfailed
  have hkind := h.fails x hx hfailed
  rw [hcall] at hkind
  exact hkind.elim id id

variable {w} in
theorem RollsOut.revision_eq {a : σ} {force f : Bool} {q r : Int} (h : w.RollsOut a force q)
    (h' : w.RollsOut a f r) (hcopies : w.Copies a) : q = r := by
  obtain ⟨x, hx, d, expected, hcall⟩ := h.applies hcopies
  obtain ⟨-, l, digests, proxy, hd⟩ := h.only x hx d expected force hcall
  obtain ⟨-, l', digests', proxy', hd'⟩ := h'.only x hx d expected force hcall
  have hlabel := congrArg (fun d => d.podLabel? s.encryption.revisionLabel) (hd.symm.trans hd')
  simp only [Rollout.podLabel?_deployment, Option.some.injEq] at hlabel
  exact Text.integer_injective hlabel

theorem exists_apply_carryOut (operator : OperatorResource) (recorded : Option Int) (p : Plan) (a : σ) :
    ∃ x ∈ (carryOut s operator recorded p (.ok ())).trace w.answer a, ∃ d,
      x.call = .applyDeployment d recorded p.force := by
  simp only [carryOut, applyPlan, Program.trace_bind]
  exact ⟨_, List.mem_append_left _ (List.mem_append_right _ (List.mem_append_left _ (List.mem_singleton_self _))),
    _, rfl⟩

theorem exists_apply_execute (operator : OperatorResource) (recorded : Option Int) (p : Plan) {a : σ}
    (h : ∀ x ∈ (execute s operator recorded p).trace w.answer a, ∀ y, x.call = .applySecret y →
      ¬x.call.Failed x.answer) :
    ∃ x ∈ (execute s operator recorded p).trace w.answer a, ∃ d, x.call = .applyDeployment d recorded p.force := by
  unfold execute at h ⊢
  split
  · exact w.exists_apply_carryOut operator recorded p a
  · next hnew =>
    rw [if_neg hnew] at h
    have hcopies : (takeSnapshot s p.revision).Uses fun c =>
        (∀ y : c.Answer, ¬c.Failed y) ∨ ∃ y, c = .applySecret y := by
      refine .bind (.ask (.inl fun _ => id)) fun v => ?_
      split
      · exact .pure _
      · refine .bind (.ask (.inr ⟨_, rfl⟩)) fun x => ?_
        cases x <;> exact .pure _
    have hmanages : w.Manages (takeSnapshot s p.revision) a := by
      intro x hx hfailed
      rcases hcopies.mem_trace w.answer hx with hnever | ⟨y, hy⟩
      · exact absurd hfailed (hnever x.answer)
      · rw [Program.trace_bind] at h
        exact absurd hfailed (h x (List.mem_append_left _ hx) y hy)
    obtain ⟨hok, -⟩ := w.takeSnapshot_of_manages hmanages
    have hrun : ((takeSnapshot s p.revision).run w.answer a).1 = .ok () := hok
    obtain ⟨x, hx, hcall⟩ :=
      w.exists_apply_carryOut operator recorded p ((takeSnapshot s p.revision).run w.answer a).2
    refine ⟨x, ?_, hcall⟩
    rw [Program.trace_bind, hrun]
    exact List.mem_append_right _ hx

variable {w} in
theorem Decides.rollsOut {a : σ} {p : Plan} (h : w.Decides a p) : w.RollsOut a p.force p.revision where
  only x hx d expected f hcall := by
    obtain ⟨hforce, logLevel, proxy, hd⟩ := h.isRollout hx hcall
    exact ⟨hforce, logLevel, p.digests, proxy, hd⟩
  applies hcopies := by
    obtain ⟨operator, changed, errors, hready, rfl⟩ := h
    have hrun : ((prepare s).run w.answer a).1 = .ready operator changed errors := hready
    have hview : (view.run w.answer ((prepare s).run w.answer a).2).1 =
        (w.state (w.after (prepare s) a)).view := w.result_view _
    have hmem {x : Step σ} (hx : x ∈ (execute s operator (recordedGeneration s operator)
        (plan (w.state (w.after (prepare s) a)).view s operator changed)).trace w.answer
          (w.after view (w.after (prepare s) a))) : x ∈ (cycle s).trace w.answer a := by
      rw [cycle_eq_prepare, Program.trace_bind, hrun]
      apply List.mem_append_right
      rw [resume, Program.trace_bind, rollOut_eq_execute, Program.trace_bind, hview]
      exact List.mem_append_left _ (List.mem_append_right _ hx)
    obtain ⟨x, hx, d, hcall⟩ := w.exists_apply_execute operator (recordedGeneration s operator)
      (plan (w.state (w.after (prepare s) a)).view s operator changed) fun x hx => hcopies x (hmem hx)
    exact ⟨x, hmem hx, d, _, hcall⟩

end Collaborators

namespace Keepers

open Workload

variable {s : Settings} {σ : Type} (w : Keepers s σ)

theorem decides_of_answers {a : σ} (hdeployable : Deployable (w.state a).operator.spec)
    (hreads : w.Answers a .getOperator) : ∃ changed, (changed = true ↔ ∃ c, w.Alters (prepare s) a c) ∧
      w.Decides a (plan (w.state (w.after (prepare s) a)).view s (w.state a).operator changed) := by
  obtain ⟨hready, -, -⟩ := w.prepare_of_deployable (w.read_of_answers hreads) hdeployable
  exact ⟨_, w.changed_iff_alters hready, _, _, _, hready, rfl⟩

/-- A settled operand is rolled out once more without force, at the revision that it has. -/
theorem Settled.rollsOut {w : Keepers s σ} {a : σ} (h : w.Settled a) (hreads : w.Answers a .getOperator) :
    w.RollsOut a false
      (if (w.state a).operator.statusOrEmpty.latestRevision = 0 then 1
      else (w.state a).operator.statusOrEmpty.latestRevision) := by
  obtain ⟨changed, hchanged, hdecides⟩ := w.decides_of_answers h.deployable hreads
  have hread := w.read_of_answers hreads
  obtain ⟨-, hprepared⟩ := h.prepared hread
  have hrolls := hdecides.rollsOut
  rwa [hprepared, h.unchanged hread hchanged, h.plan_force, h.plan_revision] at hrolls

end Keepers

/-- A settled operand, and the cluster after somebody has changed config maps and secrets. The operator resource
can be read. -/
structure Disturbance {s : Settings} {σ : Type} (w : Keepers s σ) where
  before : σ
  after : σ
  apart : ∀ r, Rollout.snapshotName s r ∉ s.objects.dependencySecrets
  settled : w.Settled before
  operator : (w.state after).operator = (w.state before).operator
  deployment : (w.state after).view.deployment? s = (w.state before).view.deployment? s
  placed : ∀ m, w.inPlace (.applyManifest m) before → w.inPlace (.applyManifest m) after
  reads : w.Answers after .getOperator

namespace Disturbance

open Workload

variable {s : Settings} {σ : Type} {w : Keepers s σ} (f : Disturbance w)

/-- Some dependency has another digest than before. -/
def Differs : Prop :=
  Rollout.dependencies (w.state f.after).view s ≠ Rollout.dependencies (w.state f.before).view s

def Configured : Prop := ∀ rendered, w.inPlace (.applyConfigMap (Operand.configMap s rendered)) f.before →
  w.inPlace (.applyConfigMap (Operand.configMap s rendered)) f.after

def latest : Int := (w.state f.before).operator.statusOrEmpty.latestRevision

def next : σ := w.after (cycle s) f.after

theorem deployable : Deployable (w.state f.after).operator.spec := by
  rw [f.operator]
  exact f.settled.deployable

/-- With the same digests and everything in place, the operand is as settled as before. -/
theorem settled_after (hsame : ¬f.Differs) (hconfigured : f.Configured) : w.Settled f.after := by
  obtain ⟨d, hfound, hrecorded⟩ := f.settled.current
  refine ⟨f.deployable, ?_, ?_, d, ?_, ?_⟩
  · rw [f.operator]
    exact f.settled.observed
  · rw [f.operator]
    intro c hc
    have hbefore := f.settled.inPlace c hc
    rcases mem_prerequisites.1 hc with ⟨m, -, rfl⟩ | ⟨rendered, -, rfl⟩
    · exact f.placed m hbefore
    · exact hconfigured rendered hbefore
  · rw [f.deployment]
    exact hfound
  · rw [hrecorded]
    exact (not_not.1 hsame).symm

section Differs
variable (hdiffers : f.Differs)

include hdiffers

/-- A dependency that differs is found out, unless something else forces the rollout before. -/
theorem forced {changed : Bool} (hchanged : changed = true ↔ ∃ c, w.Alters (prepare s) f.after c) :
    let p := plan (w.state (w.after (prepare s) f.after)).view s (w.state f.after).operator changed
    p.force = true ∧ p.revision = f.latest + 1 := by
  dsimp only
  have hread := w.read_of_answers f.reads
  have hforce : (plan (w.state (w.after (prepare s) f.after)).view s (w.state f.after).operator changed).force =
      true := by
    rw [plan_force]
    by_cases haltered : ∃ c, w.Alters (prepare s) f.after c
    · exact .inr (.inl (hchanged.2 haltered))
    · right
      right
      obtain ⟨-, hafter, -⟩ := w.prepare_of_deployable hread f.deployable
      have hasked : w.state (w.after (Program.ask .getOperator) f.after) = w.state f.after :=
        w.state_reading (c := .getOperator) trivial f.after
      have hkept := w.state_of_unaltered fun c hc =>
        haltered ⟨c, (w.alters_prepare hread f.deployable).2 hc⟩
      obtain ⟨d, hfound, hrecorded⟩ := f.settled.current
      rw [hafter, hkept, hasked, Rollout.outdated, f.deployment, hfound, Option.map_some, Option.getD_some,
        ne_eq, Dependencies.changedFrom_eq_nil, hrecorded]
      exact hdiffers
  refine ⟨hforce, ?_⟩
  simp only [plan] at hforce ⊢
  rw [hforce, f.operator]
  rfl

theorem rollsOut_after : w.RollsOut f.after true (f.latest + 1) := by
  obtain ⟨changed, hchanged, hdecides⟩ := w.decides_of_answers f.deployable f.reads
  obtain ⟨hforce, hrevision⟩ := f.forced hdiffers hchanged
  have hrolls := hdecides.rollsOut
  rwa [hforce, hrevision] at hrolls

theorem rollsOut_next (hcompletes : w.Completes (cycle s) f.after) :
    w.RollsOut f.next false (if f.latest + 1 = 0 then 1 else f.latest + 1) := by
  obtain ⟨p, d, hdone⟩ := w.accomplishes_of_completes f.deployable hcompletes
  obtain ⟨changed, hchanged, hp⟩ := hdone.planned
  obtain ⟨-, hrevision⟩ := f.forced hdiffers hchanged
  have hlatest := hdone.latest
  rw [hp, hrevision] at hlatest
  have hsettled := w.settled_of_completes f.apart f.deployable hcompletes
  obtain ⟨hreads, -, -⟩ := w.answers_of_completes f.deployable hcompletes
  have hrolls := hsettled.rollsOut hreads
  rwa [hlatest] at hrolls

end Differs

/-- A change of the digests forces exactly one rollout: the next cycle forces it, at the next revision, and when
that cycle completes the one after it rolls out the same revision without force. Revision 0 counts as none, so it
is not rolled out again. Without a change of the digests nothing is forced at all. -/
theorem exactly_one_rollout_is_forced (f : Disturbance w) :
    (f.Differs → w.RollsOut f.after true (f.latest + 1) ∧
      (w.Completes (cycle s) f.after →
        w.RollsOut f.next false (if f.latest + 1 = 0 then 1 else f.latest + 1))) ∧
    (¬f.Differs → f.Configured → w.RollsOut f.after false (if f.latest = 0 then 1 else f.latest)) := by
  refine ⟨fun hdiffers => ⟨f.rollsOut_after hdiffers, f.rollsOut_next hdiffers⟩, fun hsame hconfigured => ?_⟩
  have hrolls := (f.settled_after hsame hconfigured).rollsOut f.reads
  rwa [f.operator] at hrolls

open Simulation

def withRevision (r : Int) (c : Steady {}) : Steady {} :=
  ⟨{ c.1 with operator :=
      { c.1.operator with status := some { c.1.operator.statusOrEmpty with latestRevision := r } } }, c.2⟩

def certificate : Secret where
  metadata := { name := some "serving-cert", space := some "openshift-apiserver" }

def certified (c : Steady {}) : Steady {} := ⟨c.1.putSecret certificate, c.2⟩

theorem settled_withRevision {c : Steady {}} (h : (Steady.keepers {}).Settled c) (r : Int) :
    (Steady.keepers {}).Settled (withRevision r c) := by
  refine ⟨h.deployable, h.observed, fun call hcall => ?_, h.current⟩
  have hplaced := h.inPlace call hcall
  cases call <;> exact hplaced

theorem healthy_withRevision {c : Steady {}} (h : c.1.Healthy) (r : Int) : (withRevision r c).1.Healthy :=
  ⟨h.refusals, h.failures, h.conflicts, h.versioned⟩

theorem healthy_certified {c : Steady {}} (h : c.1.Healthy) : (certified c).1.Healthy :=
  ⟨h.refusals, h.failures, h.conflicts, h.versioned⟩

/-- The certificate is created in a cluster that has settled. -/
def creating {c : Steady {}} (hsettled : (Steady.keepers {}).Settled c) (hhealthy : c.1.Healthy) :
    Disturbance (Steady.keepers {}) where
  before := c
  after := certified c
  apart := Steady.snapshotName_not_dependency
  settled := hsettled
  operator := rfl
  deployment := rfl
  placed _ := id
  reads := Steady.not_failed_of_healthy (healthy_certified hhealthy) ⟨id, id⟩ id

theorem creating_differs {c : Steady {}} (hsettled : (Steady.keepers {}).Settled c) (hhealthy : c.1.Healthy)
    (hnone : c.1.view.secret? "openshift-apiserver" "serving-cert" = none) :
    (creating hsettled hhealthy).Differs := by
  intro h
  have hmem : "serving-cert" ∈ ({} : Settings).objects.dependencySecrets := by decide
  have hdigests := congrArg (fun d => d.get? (Rollout.secretKey {} "serving-cert")) h
  simp only [Rollout.get?_dependencies hmem, Option.some.injEq] at hdigests
  have hafter : (certified c).1.view.secret? "openshift-apiserver" "serving-cert" = some certificate :=
    Cluster.within?_put c.1.view.secrets certificate rfl
  have hbefore : Rollout.digestOf (c.1.view.secret? "openshift-apiserver" "serving-cert") = "" := by
    rw [hnone]
    rfl
  have hempty : Rollout.digestOf ((certified c).1.view.secret? "openshift-apiserver" "serving-cert") = "" :=
    hdigests.trans hbefore
  rw [Rollout.digestOf_eq_empty_iff, hafter] at hempty
  cases hempty

def first : Steady {} := (Steady.keepers {}).after (cycle {}) Steady.bare

theorem completes_bare : (Steady.keepers {}).Completes (cycle {}) Steady.bare :=
  (Steady.keepers {}).completes_of_manages (Steady.smooth_cycle {} Steady.bare Steady.healthy_bare)

theorem settled_first : (Steady.keepers {}).Settled first :=
  (Steady.keepers {}).settled_of_completes Steady.snapshotName_not_dependency ⟨rfl, _, rfl, rfl⟩ completes_bare

theorem healthy_first : first.1.Healthy := Steady.healthy_after Steady.healthy_bare (cycle {})

theorem uncertified_first : first.1.view.secret? "openshift-apiserver" "serving-cert" = none := by
  obtain ⟨p, d, hdone⟩ := (Steady.keepers {}).accomplishes_of_completes ⟨rfl, _, rfl, rfl⟩ completes_bare
  obtain ⟨m, hframe⟩ := (Steady.keepers {}).prepare_frame Steady.bare
  have hname : "serving-cert" ≠ Rollout.snapshotName {} p.revision :=
    fun he => Steady.snapshotName_not_dependency p.revision (he ▸ by decide)
  have hkept := hdone.secret? hname
  rw [hframe] at hkept
  exact hkept

/-- The certificate is created while this revision is on record. -/
def created (r : Int) : Disturbance (Steady.keepers {}) :=
  creating (settled_withRevision settled_first r) (healthy_withRevision healthy_first r)

theorem created_differs (r : Int) : (created r).Differs := creating_differs _ _ uncertified_first

theorem healthy_created (r : Int) : (created r).after.1.Healthy :=
  healthy_certified (healthy_withRevision healthy_first r)

theorem completes_created (r : Int) : (Steady.keepers {}).Completes (cycle {}) (created r).after :=
  (Steady.keepers {}).completes_of_manages (Steady.smooth_cycle {} _ (healthy_created r))

theorem certificate_is_rolled_out : (Steady.keepers {}).RollsOut (created 1).after true 2 ∧
    (Steady.keepers {}).RollsOut (created 1).next false 2 := by
  obtain ⟨hforced, hthen⟩ := (exactly_one_rollout_is_forced (created 1)).1 (created_differs 1)
  exact ⟨hforced, hthen (completes_created 1)⟩

/-- Revision 0 that follows on -1 is not rolled out again. -/
theorem revision_zero_counts_as_none : (created (-1)).Differs ∧
    (Steady.keepers {}).Completes (cycle {}) (created (-1)).after ∧
    (Steady.keepers {}).RollsOut (created (-1)).next false 1 ∧
    ¬(Steady.keepers {}).RollsOut (created (-1)).next false ((created (-1)).latest + 1) := by
  have hzero : (created (-1)).latest + 1 = 0 := rfl
  have hone := (created (-1)).rollsOut_next (created_differs (-1)) (completes_created (-1))
  rw [if_pos hzero] at hone
  refine ⟨created_differs (-1), completes_created (-1), hone, fun h => ?_⟩
  have hhealthy := Steady.healthy_after (healthy_created (-1)) (cycle {})
  have hcopies : (Steady.keepers {}).Copies (created (-1)).next :=
    (Steady.keepers {}).copies_of_completes ((Steady.keepers {}).completes_of_manages
      (Steady.smooth_cycle {} _ hhealthy))
  have hsame := h.revision_eq hone hcopies
  rw [hzero] at hsame
  cases hsame

end Disturbance

end RolloutControl
