import RolloutControl.Proofs.Workload.Deeds
import RolloutControl.Proofs.Workload.Preparation
/-! What one cycle does to the ledger. However the calls of a cycle are answered, it copies the
encryption configuration at most once, and for the next revision; it rolls out at most once, the recorded
revision or the next one; and the status has on record afterwards what it had before or what has been
rolled out. -/

namespace RolloutControl

def configDigest (c : Option Secret.Contents) : String :=
  (c.map fun c => Secret.digest { data := c.1, stringData := c.2 }).getD ""

/-- Whether the operand mounts the encryption configuration. -/
def Settings.MountsConfig (s : Settings) : Prop :=
  s.encryption.secretPrefix ∈ s.objects.dependencySecrets

instance (s : Settings) : Decidable s.MountsConfig :=
  inferInstanceAs (Decidable (s.encryption.secretPrefix ∈ s.objects.dependencySecrets))

/-- The deployment of a revision under an encryption configuration. -/
structure Deployment.IsFor (d : Deployment) (s : Settings) (r : Int) (c : Option Secret.Contents) :
    Prop where
  ref : objectRef d = deploymentRef s
  label : d.podLabel? s.encryption.revisionLabel = some (Text.integer r)
  digest : s.MountsConfig → (Carried.ofDeployment s d).digest = some (configDigest c)

inductive Copying (s : Settings) (l : Ledger) (r : Int) : Except Error Unit → List Deed → Ledger → Prop
  | nothing (h : l.source = none) : Copying s l r (.ok ()) [] l
  | copied (x : Secret) (hx : objectRef x = snapshotRef s r) (h : l.source = some x.contents) :
    Copying s l r (.ok ()) [.copied x] (l.hold r x.contents)
  | refused (x : Secret) (e : Error) : Copying s l r (.error e) [.refused x] l

/-- How a cycle arrives at the revision that it is going to roll out. -/
inductive Prepared (s : Settings) (l : Ledger) : Int → List Deed → Ledger → Prop
  /-- The recorded revision is good enough, as far as the deployment tells. -/
  | again (h : s.MountsConfig → ∀ c, l.running = some c → c.digest = some (configDigest l.source)) :
    Prepared s l l.latest [] l
  | cut {log : List Deed} {m : Ledger} (h : Copying s l (l.latest + 1) (.ok ()) log m) :
    Prepared s l (l.latest + 1) log m

/-- How a rollout goes, up to its result. -/
inductive RollingOut (s : Settings) (l : Ledger) :
    Except Error Workload.Applied → List Deed → Ledger → Prop
  | refused (x : Secret) (e : Error) : RollingOut s l (.error e) [.refused x] l
  | failed {r : Int} {log : List Deed} {m : Ledger} (e : Error) (h : Prepared s l r log m) :
    RollingOut s l (.error e) log m
  | rolledOut {r : Int} {log : List Deed} {m : Ledger} (h : Prepared s l r log m)
    {d : Deployment} (hd : d.IsFor s r l.source) (d' : Deployment) :
    RollingOut s l (.ok (d', r)) (log ++ [.rolledOut d (m.run (Carried.ofDeployment s d))])
      (m.run (Carried.ofDeployment s d))

/-- How a cycle goes that finds a ledger, what it does, and which ledger it leaves. -/
inductive Turn (s : Settings) (l : Ledger) : List Deed → Ledger → Prop
  | idle : Turn s l [] l
  | refused (x : Secret) : Turn s l [.refused x] l
  | failed {r : Int} {log : List Deed} {m : Ledger} (h : Prepared s l r log m) : Turn s l log m
  | rolledOut {r : Int} {log : List Deed} {m : Ledger} (h : Prepared s l r log m)
    {d : Deployment} (hd : d.IsFor s r l.source) {n : Int} (hn : n = l.latest ∨ n = r) :
    Turn s l (log ++ [.rolledOut d (m.run (Carried.ofDeployment s d))])
      ((m.run (Carried.ofDeployment s d)).record n)

/-- A ledger that differs from another one in its snapshots at most. -/
structure Ledger.SameButHeld (m l : Ledger) : Prop where
  latest : m.latest = l.latest
  source : m.source = l.source
  running : m.running = l.running

theorem Copying.frame {s : Settings} {l m : Ledger} {r : Int} {x : Except Error Unit} {log : List Deed}
    (h : Copying s l r x log m) : m.SameButHeld l := by
  cases h <;> exact ⟨rfl, rfl, rfl⟩

theorem Prepared.frame {s : Settings} {l m : Ledger} {r : Int} {log : List Deed}
    (h : Prepared s l r log m) : m.SameButHeld l := by
  cases h with
  | again => exact ⟨rfl, rfl, rfl⟩
  | cut h => exact h.frame

@[simp] theorem Ledger.record_self (l : Ledger) : l.record l.latest = l := rfl

/-- The status records the revision of a rollout or what it had on record before. -/
theorem RollingOut.turn {s : Settings} {l m : Ledger} {x : Except Error Workload.Applied}
    {log : List Deed} (h : RollingOut s l x log m) {n : Int}
    (hn : n = m.latest ∨ some n = x.toOption.map (·.2)) : Turn s l log (m.record n) := by
  cases h with
  | refused y e =>
    obtain rfl : n = l.latest := by simpa [Except.toOption] using hn
    exact .refused y
  | failed e h =>
    obtain rfl : n = m.latest := by simpa [Except.toOption] using hn
    exact .failed h
  | rolledOut h hd d' =>
    refine .rolledOut h hd ?_
    simpa [Except.toOption, h.frame.latest] using hn

namespace Rollout

theorem digestOf_eq (x : Option Secret) : digestOf x = configDigest (x.map Secret.contents) := by
  cases x <;> rfl

/-- What is rolled out carries the digests as they are now. -/
theorem deployment_isFor (s : Settings) (v : ClusterView) (logLevel : LogLevel) (r : Int)
    (proxy : List (String × String)) :
    (deployment s logLevel r (dependencies v s) proxy).IsFor s r
      ((v.secret? s.targetSpace s.encryption.secretPrefix).map Secret.contents) where
  ref := rfl
  label := podLabel?_deployment s logLevel r _ proxy
  digest h := by
    rw [Carried.ofDeployment, recordedDependencies_deployment, get?_dependencies h, digestOf_eq]

theorem snapshot?_eq_none {v : ClusterView} {s : Settings} {r : Int} :
    snapshot? v s r = none ↔ v.secret? s.targetSpace s.encryption.secretPrefix = none := by
  simp [snapshot?]

theorem snapshot?_eq_some {v : ClusterView} {s : Settings} {r : Int} {x : Secret}
    (h : snapshot? v s r = some x) : objectRef x = snapshotRef s r ∧
      (v.secret? s.targetSpace s.encryption.secretPrefix).map Secret.contents = some x.contents := by
  obtain ⟨source, hsource, rfl⟩ := Option.map_eq_some_iff.1 h
  exact ⟨rfl, by rw [hsource]; rfl⟩

end Rollout

namespace Workload

theorem plan_digests (v : ClusterView) (s : Settings) (operator : OperatorResource) (changed : Bool) :
    (plan v s operator changed).digests = Rollout.dependencies v s := rfl

theorem plan_revision (v : ClusterView) (s : Settings) (operator : OperatorResource) (changed : Bool) :
    (plan v s operator changed).revision = operator.statusOrEmpty.latestRevision ∨
      (plan v s operator changed).revision = operator.statusOrEmpty.latestRevision + 1 := by
  simp only [plan]
  split
  · exact .inr rfl
  · exact .inl rfl

/-- A revision is rolled out again only when the deployment carries the digests as they are now. -/
theorem recordedDependencies_of_plan {v : ClusterView} {s : Settings} {operator : OperatorResource}
    {changed : Bool} {d : Deployment}
    (h : (plan v s operator changed).revision = operator.statusOrEmpty.latestRevision)
    (hd : v.deployment? s = some d) :
    Rollout.recordedDependencies d = Rollout.dependencies v s := by
  simp only [plan, hd, Option.map_some, Option.getD_some] at h
  split at h
  · omega
  · next hforce =>
    simp only [Bool.or_eq_true, not_or, Bool.not_eq_true, Bool.not_eq_false', List.isEmpty_iff] at hforce
    exact (Dependencies.changedFrom_eq_nil.1 hforce.1.2).symm

end Workload

namespace Collaborators

open Workload

variable {s : Settings} {σ : Type} (w : Collaborators s σ)

theorem takeSnapshot_copying (r : Int) (a : σ) :
    Copying s (w.ledger a) r (w.result (takeSnapshot s r) a) (w.deeds (takeSnapshot s r) a)
      (w.ledger (w.after (takeSnapshot s r) a)) := by
  simp only [takeSnapshot, result_bind, deeds_bind, after_bind, deeds_view, List.nil_append, result_view]
  have hsource : (w.ledger a).source =
      ((w.state a).view.secret? s.targetSpace s.encryption.secretPrefix).map Secret.contents := rfl
  rw [← w.ledger_after_view a] at hsource ⊢
  generalize w.after view a = b at hsource ⊢
  cases hx : Rollout.snapshot? (w.state a).view s r with
  | none => exact .nothing (by rw [hsource, Rollout.snapshot?_eq_none.1 hx]; rfl)
  | some x =>
    obtain ⟨href, hcontents⟩ := Rollout.snapshot?_eq_some hx
    simp only [result_bind, deeds_bind, after_bind]
    cases hy : w.result (Program.ask (.applySecret x)) b with
    | ok changed =>
      obtain ⟨hdeeds, hledger⟩ := w.applySecret_ok href hy
      simpa [hdeeds, hledger] using Copying.copied x href (hsource.trans hcontents)
    | error e =>
      obtain ⟨hdeeds, hledger⟩ := w.applySecret_error hy
      simpa [hdeeds, hledger] using Copying.refused x e

/-- Once a revision has been arrived at, applying the plan ends the rollout. -/
theorem applyPlan_rollingOut (operator : OperatorResource) (recorded : Option Int) {p : Plan} {a : σ}
    {v : ClusterView} (hp : p.digests = Rollout.dependencies v s) {l : Ledger} {log : List Deed}
    (hl : (v.secret? s.targetSpace s.encryption.secretPrefix).map Secret.contents = l.source)
    (h : Prepared s l p.revision log (w.ledger a)) :
    RollingOut s l ((w.result (applyPlan s operator recorded p) a).map (·, p.revision))
      (log ++ w.deeds (applyPlan s operator recorded p) a)
      (w.ledger (w.after (applyPlan s operator recorded p) a)) := by
  simp only [applyPlan, result_bind, deeds_bind, after_bind, deeds_view, List.nil_append]
  rw [← w.ledger_after_view a] at h
  rw [hp]
  generalize Rollout.proxyEnv _ s = proxy
  generalize w.after view a = b at h ⊢
  have hd := Rollout.deployment_isFor s v operator.spec.logLevel p.revision proxy
  rw [hl] at hd
  generalize Rollout.deployment s _ _ _ _ = d at hd ⊢
  cases hx : w.result (Program.ask (.applyDeployment d recorded p.force)) b with
  | error e =>
    obtain ⟨hdeeds, hledger⟩ := w.applyDeployment_error hx
    simpa [hdeeds, hledger, Except.map] using RollingOut.failed e h
  | ok y =>
    obtain ⟨d', changed⟩ := y
    obtain ⟨hdeeds, hledger⟩ := w.applyDeployment_ok hd.ref hx
    cases changed with
    | false => simpa [hdeeds, hledger, Except.map] using RollingOut.rolledOut h hd d'
    | true =>
      have hpublish (e : Event) (c : σ) := w.ledger_after_quiet (uses_publish e) c
      simpa [hdeeds, hledger, hpublish, w.deeds_quiet (uses_publish _), Except.map] using
        RollingOut.rolledOut h hd d'

/-- A revision that stays the recorded one needs no other snapshot. -/
theorem prepared_again {operator : OperatorResource} (changed : Bool) {a : σ}
    (hlatest : operator.statusOrEmpty.latestRevision = (w.ledger a).latest)
    (h : (plan (w.state a).view s operator changed).revision = (w.ledger a).latest) :
    Prepared s (w.ledger a) (w.ledger a).latest [] (w.ledger a) := by
  have hsource : ((w.state a).view.secret? s.targetSpace s.encryption.secretPrefix).map Secret.contents =
    (w.ledger a).source := rfl
  refine .again fun hs c hc => ?_
  obtain ⟨d, hd, rfl⟩ := Option.map_eq_some_iff.1 hc
  rw [Carried.ofDeployment, recordedDependencies_of_plan (h.trans hlatest.symm) hd, Rollout.get?_dependencies hs,
    Rollout.digestOf_eq, hsource]

theorem rollOut_rollingOut {operator : OperatorResource} (changed : Bool) (recorded : Option Int) (a : σ)
    (hlatest : operator.statusOrEmpty.latestRevision = (w.ledger a).latest) :
    RollingOut s (w.ledger a) (w.result (rollOut s operator changed recorded) a)
      (w.deeds (rollOut s operator changed recorded) a)
      (w.ledger (w.after (rollOut s operator changed recorded) a)) := by
  simp only [rollOut, result_bind, deeds_bind, after_bind, deeds_view, List.nil_append, result_view]
  have hsource : ((w.state a).view.secret? s.targetSpace s.encryption.secretPrefix).map Secret.contents =
    (w.ledger a).source := rfl
  have hagain := w.prepared_again changed hlatest
  have hrevision := plan_revision (w.state a).view s operator changed
  have hdigests := plan_digests (w.state a).view s operator changed
  rw [hlatest] at hrevision ⊢
  rw [← w.ledger_after_view a] at hsource hagain hrevision ⊢
  generalize w.after view a = b at hsource hagain hrevision ⊢
  generalize plan _ s operator changed = p at hagain hrevision hdigests ⊢
  split
  · next h =>
    have hend := w.applyPlan_rollingOut operator recorded hdigests hsource (h ▸ hagain h)
    simp only [result_bind, deeds_bind, after_bind, result_pure, deeds_pure, after_pure]
    cases hx : w.result (applyPlan s operator recorded p) b <;> simpa [hx, Except.map] using hend
  · next h =>
    have hcut := hrevision.resolve_left h
    have hcopying := w.takeSnapshot_copying p.revision b
    simp only [result_bind, deeds_bind, after_bind]
    cases hx : w.result (takeSnapshot s p.revision) b with
    | error e =>
      rw [hx] at hcopying
      generalize w.deeds (takeSnapshot s p.revision) b = log at hcopying ⊢
      generalize hledger : w.ledger (w.after (takeSnapshot s p.revision) b) = m at hcopying
      cases hcopying with
      | refused x => simpa [hledger] using RollingOut.refused x e
    | ok u =>
      rw [hx, hcut] at hcopying
      have hprepared := hcut ▸ Prepared.cut hcopying
      have hend := w.applyPlan_rollingOut operator recorded hdigests hsource hprepared
      simp only [result_bind, deeds_bind, after_bind]
      generalize w.deeds (takeSnapshot s p.revision) b = log at hend ⊢
      generalize w.after (takeSnapshot s p.revision) b = c at hend ⊢
      cases hy : w.result (applyPlan s operator recorded p) c <;> simpa [hy, Except.map] using hend

theorem quiet_applyPrerequisites (s : Settings) (spec : OperatorSpec) :
    (applyPrerequisites s spec).Uses Quiet := by
  refine (uses_applyPrerequisites s spec).mono fun c hc => ?_
  rcases hc with hc | hreading
  · obtain ⟨m, rfl⟩ | ⟨rendered, rfl⟩ := IsPrerequisite.cases ⟨spec, hc⟩ <;> trivial
  · exact hreading.quiet

theorem quiet_availability (s : Settings) (current : Option Deployment) :
    (availability s current).Uses Quiet :=
  (uses_availability s current).mono fun _ => Reading.quiet

theorem examine_rollingOut {operator : OperatorResource} (a : σ)
    (hlatest : operator.statusOrEmpty.latestRevision = (w.ledger a).latest) :
    ∃ x, RollingOut s (w.ledger a) x (w.deeds (examine s operator) a)
        (w.ledger (w.after (examine s operator) a)) ∧
      (w.result (examine s operator) a).applied = x.toOption := by
  simp only [examine, result_bind, deeds_bind, after_bind]
  have hquiet := quiet_applyPrerequisites s operator.spec
  rw [w.deeds_quiet hquiet, List.nil_append, ← w.ledger_after_quiet hquiet a]
  rw [← w.ledger_after_quiet hquiet a] at hlatest
  generalize w.after (applyPrerequisites s operator.spec) a = b at hlatest ⊢
  generalize w.result (applyPrerequisites s operator.spec) a = y
  obtain ⟨changed, errors⟩ := y
  generalize GenerationRecord.expected _ _ _ _ _ = recorded
  have hrolling := w.rollOut_rollingOut changed recorded b hlatest
  generalize w.after (rollOut s operator changed recorded) b = c at hrolling ⊢
  generalize w.deeds (rollOut s operator changed recorded) b = log at hrolling ⊢
  have hdeeds (current : Option Deployment) (d : σ) := w.deeds_quiet (quiet_availability s current) d
  have hledger (current : Option Deployment) (d : σ) :=
    w.ledger_after_quiet (quiet_availability s current) d
  refine ⟨w.result (rollOut s operator changed recorded) b, ?_, ?_⟩
  · cases hx : w.result (rollOut s operator changed recorded) b with
    | ok applied => simpa [hx, hdeeds, hledger] using hrolling
    | error e =>
      have hpublish (e : Event) (d : σ) := w.ledger_after_quiet (uses_publish e) d
      simpa [hx, hdeeds, hledger, hpublish, w.deeds_quiet (uses_publish _)] using hrolling
  · cases hx : w.result (rollOut s operator changed recorded) b <;> simp [Except.toOption]

theorem status_latestRevision (r : Report) (s : Settings) (operator : OperatorResource) (now : Instant)
    (old : OperatorStatus) : (r.status s operator now old).latestRevision =
      (r.applied.map (·.2)).getD old.latestRevision := by
  unfold Report.status
  cases r.applied with
  | none => rfl
  | some x =>
    obtain ⟨d, revision⟩ := x
    dsimp only
    cases d.metadata.generation <;> rfl

theorem waitForConfig_idle (a : σ) :
    w.deeds (waitForConfig s) a = [] ∧ w.ledger (w.after (waitForConfig s) a) = w.ledger a := by
  simp only [waitForConfig, deeds_bind, after_bind, deeds_updateStatus, List.nil_append]
  generalize hchange : (fun (_ : Instant) (_ : OperatorStatus) => _) = change
  obtain ⟨n, rfl, hledger⟩ := w.ledger_after_updateStatus (P := (· = (w.ledger a).latest)) change
    (by subst hchange; exact fun now old hold => hold) a rfl
  split <;> simpa using hledger

/-- Every cycle is a turn. -/
theorem cycle_turn (a : σ) : Turn s (w.ledger a) (w.deeds (cycle s) a) (w.ledger (w.after (cycle s) a)) := by
  have hread : w.ledger (w.after (Program.ask .getOperator) a) = w.ledger a :=
    w.ledger_quiet .getOperator trivial a
  have hsilent : w.deeds (Program.ask .getOperator) a = [] :=
    w.deeds_quiet (Program.Uses.ask (c := .getOperator) trivial) a
  simp only [cycle, deeds_bind, after_bind, hsilent, List.nil_append]
  cases hx : w.result (Program.ask .getOperator) a with
  | error e => simpa [hread] using Turn.idle
  | ok operator =>
    have hlatest := w.statusOrEmpty_latest hx
    rw [← hread] at hlatest ⊢
    generalize w.after (Program.ask .getOperator) a = b at hlatest ⊢
    dsimp only
    split
    · exact .idle
    · split
      · exact .idle
      · split
        · obtain ⟨hdeeds, hledger⟩ := w.waitForConfig_idle b
          rw [hdeeds, hledger]
          exact .idle
        · obtain ⟨x, hrolling, happlied⟩ := w.examine_rollingOut b hlatest
          simp only [deeds_bind, after_bind, deeds_updateStatus, List.nil_append]
          generalize w.after (examine s operator) b = c at hrolling ⊢
          generalize w.result (examine s operator) b = report at happlied ⊢
          obtain ⟨n, hn, hledger⟩ := w.ledger_after_updateStatus
            (P := fun n => n = (w.ledger c).latest ∨ some n = report.applied.map (·.2))
            (report.status s operator) (fun now old hold => by
              rw [status_latestRevision]
              cases h : report.applied with
              | none => simpa [h] using hold
              | some y => exact .inr rfl) c (.inl rfl)
          have hend := hrolling.turn (happlied ▸ hn)
          rw [← hledger] at hend
          split
          · simpa using hend
          · split <;> simpa using hend

end Collaborators

end RolloutControl
