import RolloutControl.Proofs.Encryption.Agreement
import RolloutControl.Proofs.Observe.Likeness
import RolloutControl.Proofs.Simulation.Health
import RolloutControl.Proofs.Workload.Standstill
/-! Both controllers in turns. The observers look at the replicas, the workload follows the observed config, and
the replicas follow the workload, so each of them works on what the others have made. The first round deploys, the
second one can switch the encryption on and roll out once more, and from then on everything stays as it is. -/

namespace RolloutControl

/-- The labels of replicas lead to the secret that they mount, and no dependency is taken for such a secret. -/
structure Settings.Traceable (s : Settings) : Prop where
  space : s.encryption.space = s.targetSpace
  label : s.encryption.podSelector.get? s.encryption.revisionLabel = none
  app : s.encryption.podSelector.get? "app" = none
  apart : ∀ r, Rollout.snapshotName s r ∉ s.objects.dependencySecrets

/-- Nothing has been rolled out yet, and the encryption has not been set. -/
structure ClusterState.Untouched (s : Settings) (a : ClusterState) : Prop where
  managed : a.operator.spec.managementState = .managed
  unrecorded : a.operator.status = none
  unset : ∀ d, Observer.Has a d → d.get? Observer.providerConfig = none
  undeployed : a.view.deployment? s = none
  podless : a.view.pods = ∅
  uncopied : ∀ r : ObjectRef, (s.encryption.secretPrefix ++ "-").toList <+: r.name.toList →
    Dict.get? a.view.secrets r = none

/-- These pods are replicas of the deployment, and all of them run. -/
structure Deployment.RunsAs (d : Deployment) (s : Settings) (pods : Cache Pod) : Prop where
  nonempty : pods.list ≠ []
  space : ∀ p ∈ pods.list, p.metadata.space = some s.targetSpace
  phase : ∀ p ∈ pods.list, p.phase = some "Running"
  undeleted : ∀ p ∈ pods.list, p.metadata.deleted = none
  labelled : ∀ p ∈ pods.list, ∀ label value, d.podLabel? label = some value →
    (p.metadata.labels.getD ∅).get? label = some value

theorem Deployment.RunsAs.runs {d : Deployment} {s : Settings} {pods : Cache Pod} (h : d.RunsAs s pods)
    (hs : s.Traceable) {logLevel : LogLevel} {r : Int} {digests : Dependencies} {proxy : List (String × String)}
    (hd : d.Matches (Rollout.deployment s logLevel r digests proxy)) {p : Pod} (hp : p ∈ pods.list) :
    DeployedSource.Runs s.encryption (Text.integer r) p where
  space := by
    rw [hs.space]
    exact h.space p hp
  phase := h.phase p hp
  undeleted := h.undeleted p hp
  selected := by
    refine List.all_eq_true.2 fun e he => decide_eq_true ?_
    have hselector : s.encryption.podSelector.get? e.1 = some e.2 := Dict.mem_entries_iff.1 he
    have hlabel : e.1 ≠ s.encryption.revisionLabel := by
      intro heq
      rw [heq, hs.label] at hselector
      cases hselector
    have happ : e.1 ≠ "app" := by
      intro heq
      rw [heq, hs.app] at hselector
      cases hselector
    apply h.labelled p hp
    rw [hd.podLabel?]
    simp [Deployment.podLabel?, Rollout.deployment, Rollout.selector, hlabel, happ, hselector]
  labelled := by
    apply h.labelled p hp
    rw [hd.podLabel?, Rollout.podLabel?_deployment]

namespace Observer

/-- The replicas that run are the only source. -/
def replicas (facts : Facts) : List DeployedSource := [.ofReplicas facts.view facts.settings.encryption]

end Observer

/-- What somebody else does between two rounds: replicas take the place of all pods as soon as there is a
deployment. -/
structure Keepers.Replaces {s : Settings} {σ : Type} (w : Keepers s σ) (a b : σ) : Prop where
  operator : (w.state b).operator = (w.state a).operator
  view : (w.state b).view = { (w.state a).view with pods := (w.state b).view.pods }
  replicas : ∀ d, (w.state a).view.deployment? s = some d → d.RunsAs s (w.state b).view.pods
  podless : (w.state a).view.deployment? s = none → (w.state b).view.pods = (w.state a).view.pods
  placed : ∀ c, Workload.IsPrerequisite s c → w.inPlace c a → w.inPlace c b

/-- Rounds of the observers, in any order, and the workload. What the observers look at besides the replicas
stays the same, nothing keeps them from reading, and all that is written is stored in the end. -/
structure Rounds {s : Settings} {σ : Type} (w : Keepers s σ) where
  start : Nat → σ
  order : Nat → List Nat
  traceable : s.Traceable
  untouched : (w.state (start 0)).Untouched s
  order_perm : ∀ n, (order n).Perm (List.range 5)
  reads : ∀ n, w.FailsOnly Observer.IsWrite (Observer.cycle Observer.builtIn s (order n)) (start n)
  lasts : ∀ n, Observer.Lasts w.toRecorders (Observer.cycle Observer.builtIn s (order n)) (start n)
  completes : ∀ n, w.Completes (Workload.cycle s) (w.after (Observer.cycle Observer.builtIn s (order n)) (start n))
  fixed : ∀ n, Observer.watched s (w.state (start n)).view = Observer.watched s (w.state (start 0)).view
  replaced : ∀ n, w.Replaces
    (w.after (Workload.cycle s) (w.after (Observer.cycle Observer.builtIn s (order n)) (start n))) (start (n + 1))

namespace Rounds

open Observer Workload

variable {s : Settings} {σ : Type} {w : Keepers s σ} (run : Rounds w) (n : Nat)

def observed : σ := w.after (Observer.cycle builtIn s (run.order n)) (run.start n)

def ended : σ := w.after (Workload.cycle s) (run.observed n)

def facts : Facts := ⟨(w.state (run.start n)).view, s⟩

/-- Encryption is enabled, and there is a configuration to encrypt with. -/
def Encrypted : Prop := s.encryption.enabled ∧ ∃ x c,
  (w.state (run.start 0)).view.secret? s.targetSpace s.encryption.secretPrefix = some x ∧
    x.encryptionConfig = .ok c

/-- A round writes neither the spec, nor the deployment, nor a secret. -/
structure Spares : Prop where
  observers : ∀ x ∈ (Observer.cycle builtIn s (run.order n)).trace w.answer (run.start n), x.call.Spares x.answer
  workload : ∀ x ∈ (Workload.cycle s).trace w.answer (run.observed n), x.call.Spares x.answer
  spec : (w.state (run.ended n)).operator.spec = (w.state (run.start n)).operator.spec
  view : (w.state (run.ended n)).view = (w.state (run.start n)).view

/-- Whenever there is a deployment, the setting is there exactly if the operand can encrypt. -/
def Tells (a : σ) : Prop := (w.state a).view.deployment? s ≠ none →
  ∃ d, Has (w.state a) d ∧ ((d.get? providerConfig).isSome ↔ run.Encrypted)

theorem tended : Tended (w.state (run.start n)) (w.state (run.observed n)) :=
  tended_cycle w.toRecorders builtIn (run.order n) (run.start n)

theorem spec_ended : (w.state (run.ended n)).operator.spec = (w.state (run.observed n)).operator.spec := by
  by_cases h : Deployable (w.state (run.observed n)).operator.spec
  · obtain ⟨p, d, hdone⟩ := w.accomplishes_of_completes h (run.completes n)
    exact hdone.spec
  · exact (w.cycle_of_not_deployable h).2.2.1

theorem spec_start_succ :
    (w.state (run.start (n + 1))).operator.spec = (w.state (run.observed n)).operator.spec := by
  rw [(run.replaced n).operator]
  exact run.spec_ended n

theorem has_start_succ {d : Document} : Has (w.state (run.start (n + 1))) d ↔ Has (w.state (run.observed n)) d := by
  rw [Has, run.spec_start_succ n, Has]

theorem managed : (w.state (run.start n)).operator.spec.managementState = .managed := by
  induction n with
  | zero => exact run.untouched.managed
  | succ n ih => rw [run.spec_start_succ, (run.tended n).managementState, ih]

theorem ledger_observed : w.ledger (run.observed n) = w.ledger (run.start n) := by
  simp only [Collaborators.ledger, ClusterState.ledger, (run.tended n).view, (run.tended n).latest]

theorem ledger_start_succ : w.ledger (run.start (n + 1)) = w.ledger (run.ended n) := by
  simp only [Collaborators.ledger, ClusterState.ledger, (run.replaced n).operator]
  rw [(run.replaced n).view]
  rfl

theorem stable {d : Document} (h : Has (w.state (run.observed n)) d) : Stable replicas (run.facts n) d := by
  let sequel : Sequel w.toRecorders :=
    ⟨replicas, run.start n, run.order n, run.order n, run.order_perm n, run.order_perm n, run.reads n, run.lasts n⟩
  have hmanaged : (w.state sequel.middle).operator.spec.managementState = .managed :=
    (run.tended n).managementState.trans (run.managed n)
  have hstable := sequel.stable_middle hmanaged h
  rwa [show (w.state sequel.middle).view = (w.state (run.start n)).view from (run.tended n).view] at hstable

theorem silent_succ (h : ∀ d, Has (w.state (run.observed n)) d → Stable replicas (run.facts (n + 1)) d) :
    ∀ x ∈ (Observer.cycle builtIn s (run.order (n + 1))).trace w.answer (run.start (n + 1)),
      ¬x.call.IsSpecWrite := by
  intro x hx
  have hsilent := cycle_silent w.toRecorders (run.order_perm (n + 1))
    (fun d _ hd => h d ((run.has_start_succ n).1 hd)) x hx
  exact hsilent.1

theorem unset_observed (hencrypts : ¬Encrypts replicas (run.facts n))
    (h : ∀ d, Has (w.state (run.start n)) d → d.get? providerConfig = none) {d : Document}
    (hd : Has (w.state (run.observed n)) d) : d.get? providerConfig = none := by
  by_cases hreadable : ∃ existing, Has (w.state (run.start n)) existing
  · obtain ⟨existing, hexisting⟩ := hreadable
    have hunset := h existing hexisting
    rcases cycle_stores w.toRecorders (run.managed n) hexisting (run.reads n) (run.lasts n) with hnew | ⟨-, hold⟩
    · obtain rfl := Except.ok.inj (hd.symm.trans hnew)
      exact get?_observeIn_of_not_encrypts (run.order_perm n) hencrypts hunset
    · obtain rfl := Except.ok.inj (hd.symm.trans hold)
      exact hunset
  · have hidle : w.state (run.observed n) = w.state (run.start n) :=
      state_cycle_of_idle w.toRecorders fun existing _ hexisting => hreadable ⟨existing, hexisting⟩
    rw [hidle] at hd
    exact h d hd

theorem latest_zero : (w.ledger (run.start 0)).latest = 0 := by
  simp [Collaborators.ledger, ClusterState.ledger, OperatorResource.statusOrEmpty, run.untouched.unrecorded]

theorem inStep_source : (w.ledger (run.start n)).InStep ∧
    (w.ledger (run.start n)).source = (w.ledger (run.start 0)).source ∧ 0 ≤ (w.ledger (run.start n)).latest := by
  induction n with
  | zero =>
    have hlatest := run.latest_zero
    have hfree (r : Int) : (w.ledger (run.start 0)).held r = none := by
      have hfree (space : Option String) :
          Dict.get? (w.state (run.start 0)).view.secrets ⟨Rollout.snapshotName s r, space⟩ = none :=
        run.untouched.uncopied _ (isPrefix_snapshotName s r)
      simp [Collaborators.ledger, ClusterState.ledger, ClusterView.secret?, Cache.within?, Cache.find?, hfree]
    exact ⟨⟨fun hsome => absurd hlatest hsome, fun r _ => hfree r⟩, rfl, by omega⟩
  | succ n ih =>
    obtain ⟨hstep, hsource, hlatest⟩ := ih
    rw [← run.ledger_observed n] at hstep hsource hlatest
    rw [run.ledger_start_succ n]
    by_cases h : Deployable (w.state (run.observed n)).operator.spec
    · obtain ⟨p, d, hdone⟩ := w.accomplishes_of_completes h (run.completes n)
      refine ⟨hdone.inStep hstep, hdone.source.trans hsource, ?_⟩
      have hrevision : (w.ledger (run.ended n)).latest = p.revision := hdone.latest
      rcases hdone.revision_cases with ⟨hagain, -⟩ | hnew <;> omega
    · obtain ⟨-, hview, -, hrevision⟩ := w.cycle_of_not_deployable h
      have hledger : w.ledger (run.ended n) = w.ledger (run.observed n) := by
        simp only [Collaborators.ledger, ClusterState.ledger, ended, hview, hrevision]
      rw [hledger]
      exact ⟨hstep, hsource, hlatest⟩

theorem not_encrypts_zero : ¬Encrypts replicas (run.facts 0) := by
  intro h
  obtain ⟨-, x, hreport, -⟩ := (DeployedSource.exists_settled_iff _).1 h
  have hnone := DeployedSource.report_of_no_pods (s := s.encryption) run.untouched.podless
  cases hnone.symm.trans hreport

/-- Once the operand has been deployed, all replicas run the revision on record, and stand for its snapshot. -/
theorem report_succ (h : Deployable (w.state (run.observed n)).operator.spec) : ∃ snapshot,
    (DeployedSource.ofReplicas (w.state (run.start (n + 1))).view s.encryption).report = .ok (.settled snapshot) ∧
      snapshot.map Secret.contents =
        ((w.state (run.start 0)).view.secret? s.targetSpace s.encryption.secretPrefix).map Secret.contents := by
  obtain ⟨p, d, hdone⟩ := w.accomplishes_of_completes h (run.completes n)
  have hfound : (w.state (run.ended n)).view.deployment? s = some d := hdone.found
  have hreplicas := (run.replaced n).replicas d hfound
  refine ⟨(w.state (run.start (n + 1))).view.secret? s.targetSpace (Rollout.snapshotName s p.revision), ?_, ?_⟩
  · rw [DeployedSource.report_of_runs hreplicas.nonempty fun pod hpod =>
      hreplicas.runs run.traceable hdone.matched hpod, run.traceable.space]
    rfl
  · obtain ⟨hstep, hsource, -⟩ := run.inStep_source (n + 1)
    obtain ⟨-, -, hlatest⟩ := run.inStep_source n
    have hrevision : (w.ledger (run.start (n + 1))).latest = p.revision := by
      rw [run.ledger_start_succ n]
      exact hdone.latest
    have hsome : p.revision ≠ 0 := by
      have hcases := hdone.revision_cases
      rw [run.ledger_observed n] at hcases
      omega
    have hcurrent := hstep.current (by rw [hrevision]; exact hsome)
    rw [hrevision, hsource] at hcurrent
    exact hcurrent

theorem encrypts_succ (h : Deployable (w.state (run.observed n)).operator.spec) :
    Encrypts replicas (run.facts (n + 1)) ↔ run.Encrypted := by
  obtain ⟨snapshot, hreport, hcontents⟩ := run.report_succ n h
  have hencrypts : Encrypts replicas (run.facts (n + 1)) ↔ s.encryption.enabled = true ∧ ∃ x,
      (DeployedSource.ofReplicas (w.state (run.start (n + 1))).view s.encryption).report =
        .ok (.settled (some x)) ∧ x.contents.Decodable := DeployedSource.exists_settled_iff _
  rw [hencrypts, hreport]
  simp only [Except.ok.injEq, Convergence.settled.injEq]
  exact and_congr_right fun _ => Secret.exists_decodable_iff hcontents

/-- There is nothing to be deployed, and nothing has been deployed. -/
structure Bare : Prop where
  undeployable : ¬Deployable (w.state (run.observed n)).operator.spec
  undeployed : (w.state (run.start n)).view.deployment? s = none
  latest : (w.ledger (run.start n)).latest = 0

variable {run n} in
theorem Bare.succ (h : run.Bare n) : run.Bare (n + 1) ∧ run.Spares (n + 1) := by
  obtain ⟨hcalls, hview, hspec, hrevision⟩ := w.cycle_of_not_deployable h.undeployable
  have hended : (w.state (run.ended n)).view = (w.state (run.start n)).view := hview.trans (run.tended n).view
  have hundeployed : (w.state (run.ended n)).view.deployment? s = none := by
    rw [hended]
    exact h.undeployed
  have hsame : (w.state (run.start (n + 1))).view = (w.state (run.start n)).view := by
    have hpods := (run.replaced n).podless hundeployed
    rw [(run.replaced n).view, hpods]
    exact hended
  have hsilent := run.silent_succ n fun d hd => by
    rw [facts, hsame]
    exact run.stable n hd
  obtain ⟨hkept, -⟩ := spec_of_unwritten w.toRecorders (uses_cycle builtIn s _) hsilent
  have hundeployable : ¬Deployable (w.state (run.observed (n + 1))).operator.spec := by
    rw [observed, hkept, run.spec_start_succ]
    exact h.undeployable
  obtain ⟨hcalls', hview', hspec', -⟩ := w.cycle_of_not_deployable hundeployable
  refine ⟨⟨hundeployable, ?_, ?_⟩, ⟨fun x hx => ?_, hcalls', ?_, ?_⟩⟩
  · rw [hsame]
    exact h.undeployed
  · rw [run.ledger_start_succ, ← h.latest, ← run.ledger_observed n]
    exact hrevision
  · exact spares_of_tends ((uses_cycle builtIn s _).mem_trace w.answer hx).1 (hsilent x hx) _
  · exact hspec'.trans hkept
  · exact hview'.trans (run.tended (n + 1)).view

/-- The operand is deployed in this round, and the setting is in line with what the replicas have said. -/
structure Deploys : Prop where
  deployable : Deployable (w.state (run.observed n)).operator.spec
  encrypted : Encrypts replicas (run.facts n) → run.Encrypted
  unset : ¬Encrypts replicas (run.facts n) → ∀ d, Has (w.state (run.observed n)) d → d.get? providerConfig = none

theorem deploys_zero (h : Deployable (w.state (run.observed 0)).operator.spec) : run.Deploys 0 where
  deployable := h
  encrypted hencrypts := absurd hencrypts run.not_encrypts_zero
  unset hencrypts _ hd := run.unset_observed 0 hencrypts run.untouched.unset hd

section Deploys
variable {run n} (h : run.Deploys n)

include h

/-- As long as the replicas say the same, the observers have nothing to write. -/
theorem Deploys.silent (hsame : Encrypts replicas (run.facts (n + 1)) ↔ Encrypts replicas (run.facts n)) :
    ∀ x ∈ (Observer.cycle builtIn s (run.order (n + 1))).trace w.answer (run.start (n + 1)),
      ¬x.call.IsSpecWrite := by
  apply run.silent_succ n
  intro d hd
  have hwatched : watched s (w.state (run.start (n + 1))).view = watched s (w.state (run.start n)).view := by
    rw [run.fixed (n + 1), run.fixed n]
  exact (run.stable n hd).congr hwatched hsame fun hencrypts => h.unset hencrypts d hd

theorem Deploys.succ : run.Deploys (n + 1) := by
  have hencrypts := run.encrypts_succ n h.deployable
  obtain ⟨hmanaged, existing, hexisting, hempty⟩ := h.deployable
  have hstart : Has (w.state (run.start (n + 1))) existing := (run.has_start_succ n).2 hexisting
  by_cases hswitched : Encrypts replicas (run.facts (n + 1))
  · obtain ⟨d, hd, hstable⟩ := cycle_leaves_stable w.toRecorders (run.managed (n + 1)) hstart
      (run.reads (n + 1)) (run.lasts (n + 1)) (run.order_perm (n + 1))
    have hset : (d.get? providerConfig).isSome := hstable.isSome_of_encrypts hswitched
    refine ⟨⟨?_, d, hd, ?_⟩, hencrypts.1, fun hnot => absurd hswitched hnot⟩
    · exact (run.tended (n + 1)).managementState.trans (run.managed (n + 1))
    · exact Document.isEmpty_of_isSome_get? hset
  · have hbefore : ¬Encrypts replicas (run.facts n) := fun hbefore => hswitched (hencrypts.2 (h.encrypted hbefore))
    have hsilent := h.silent (iff_of_false hswitched hbefore)
    obtain ⟨hkept, -⟩ := spec_of_unwritten w.toRecorders (uses_cycle builtIn s _) hsilent
    have hspec : (w.state (run.observed (n + 1))).operator.spec = (w.state (run.observed n)).operator.spec :=
      hkept.trans (run.spec_start_succ n)
    refine ⟨?_, hencrypts.1, fun _ d hd => ?_⟩
    · rw [hspec]
      exact ⟨hmanaged, existing, hexisting, hempty⟩
    · rw [Has, hspec] at hd
      exact h.unset hbefore d hd

/-- The revision on record afterwards is there, and at most the next one. -/
theorem Deploys.latest : (w.ledger (run.ended n)).latest ≠ 0 ∧
    (w.ledger (run.ended n)).latest ≤ (w.ledger (run.start n)).latest + 1 := by
  obtain ⟨p, d, hdone⟩ := w.accomplishes_of_completes h.deployable (run.completes n)
  obtain ⟨-, -, hlatest⟩ := run.inStep_source n
  have hcases := hdone.revision_cases
  rw [run.ledger_observed n] at hcases
  have hrevision : (w.ledger (run.ended n)).latest = p.revision := hdone.latest
  omega

/-- After the second round the replicas say what they have said before, so nothing is written any more. -/
theorem Deploys.spares_succ (hsame : Encrypts replicas (run.facts (n + 1)) ↔ Encrypts replicas (run.facts n)) :
    run.Spares (n + 1) ∧ (w.ledger (run.ended (n + 1))).latest = (w.ledger (run.ended n)).latest := by
  have hsilent := h.silent hsame
  obtain ⟨hspec, hgeneration⟩ := spec_of_unwritten w.toRecorders (uses_cycle builtIn s _) hsilent
  have htended := run.tended (n + 1)
  have hreplaced := run.replaced n
  have hstood : w.Standing (run.ended n) :=
    w.standing_of_completes run.traceable.apart h.deployable (run.completes n)
  -- between the two cycles only pods, documents and conditions have changed
  have hstands : w.Standing (run.observed (n + 1)) := by
    apply hstood.of_same
    · exact hspec.trans (congrArg OperatorResource.spec hreplaced.operator)
    · exact hgeneration.trans (congrArg OperatorResource.generation hreplaced.operator)
    · exact htended.observed.trans (congrArg (fun r => r.statusOrEmpty.observedGeneration) hreplaced.operator)
    · exact htended.latest.trans (congrArg (fun r => r.statusOrEmpty.latestRevision) hreplaced.operator)
    · exact ⟨_, htended.view.trans hreplaced.view⟩
    · intro c hc hplaced
      have huses : (Observer.cycle builtIn s (run.order (n + 1))).Uses fun c' => ¬c'.Displaces c :=
        (uses_cycle builtIn s _).mono fun c' hc' => hc'.1.not_displaces c
      exact w.inPlace_after hc huses (hreplaced.placed c hc hplaced)
  have hledger : w.ledger (run.observed (n + 1)) = w.ledger (run.ended n) :=
    (run.ledger_observed (n + 1)).trans (run.ledger_start_succ n)
  have hlatest : (w.state (run.observed (n + 1))).operator.statusOrEmpty.latestRevision =
      (w.ledger (run.ended n)).latest := congrArg Ledger.latest hledger
  have hsome : (w.state (run.observed (n + 1))).operator.statusOrEmpty.latestRevision ≠ 0 := by
    rw [hlatest]
    exact h.latest.1
  obtain ⟨hcalls, hview, hrevision⟩ := hstands.spares_cycle hsome (run.completes (n + 1))
  refine ⟨⟨fun x hx => ?_, hcalls, ?_, ?_⟩, ?_⟩
  · exact spares_of_tends ((uses_cycle builtIn s _).mem_trace w.answer hx).1 (hsilent x hx) _
  · exact (run.spec_ended (n + 1)).trans hspec
  · exact hview.trans htended.view
  · exact hrevision.trans hlatest

end Deploys

theorem deploys (h : Deployable (w.state (run.observed 0)).operator.spec) : run.Deploys n := by
  induction n with
  | zero => exact run.deploys_zero h
  | succ n ih => exact ih.succ

theorem deployable_of_seen {existing : Document} (hexisting : Has (w.state (run.start 0)) existing) {o : Observer}
    (ho : o ∈ builtInOver replicas) {p : Path} (hp : p ∈ o.paths)
    (hseen : ∀ d, ((o.observe (run.facts 0) d).config.get? p).isSome) :
    Deployable (w.state (run.observed 0)).operator.spec := by
  obtain ⟨d, hd, hstable⟩ := cycle_leaves_stable w.toRecorders (run.managed 0) hexisting (run.reads 0) (run.lasts 0)
    (run.order_perm 0)
  have hset : (d.get? p).isSome := hstable.isSome_of_seen ho hp (hseen d)
  exact ⟨(run.tended 0).managementState.trans (run.managed 0), d, hd, Document.isEmpty_of_isSome_get? hset⟩

theorem bare (h : ¬Deployable (w.state (run.observed 0)).operator.spec) : run.Bare n := by
  induction n with
  | zero => exact ⟨h, run.untouched.undeployed, run.latest_zero⟩
  | succ n ih => exact ih.succ.1

/-- From the second round on the replicas tell if there is anything to encrypt with. -/
theorem encrypts_iff (h : Deployable (w.state (run.observed 0)).operator.spec) :
    Encrypts replicas (run.facts (n + 1)) ↔ run.Encrypted := run.encrypts_succ n (run.deploys n h).deployable

theorem spares (hn : 2 ≤ n) : run.Spares n := by
  obtain ⟨m, rfl⟩ : ∃ m, n = m + 1 + 1 := ⟨n - 2, by omega⟩
  by_cases h : Deployable (w.state (run.observed 0)).operator.spec
  · have hsame := (run.encrypts_iff (m + 1) h).trans (run.encrypts_iff m h).symm
    exact ((run.deploys (m + 1) h).spares_succ hsame).1
  · exact (run.bare (m + 1) h).succ.2

theorem latest_ended : (w.ledger (run.ended n)).latest ≤ 2 := by
  by_cases h : Deployable (w.state (run.observed 0)).operator.spec
  · have hzero := run.latest_zero
    have hfirst := (run.deploys 0 h).latest.2
    have hsecond := (run.deploys 1 h).latest.2
    rw [run.ledger_start_succ 0] at hsecond
    induction n with
    | zero => omega
    | succ n ih =>
      cases n with
      | zero =>
        show (w.ledger (run.ended 1)).latest ≤ 2
        omega
      | succ n =>
        have hsame := (run.encrypts_iff (n + 1) h).trans (run.encrypts_iff n h).symm
        rw [((run.deploys (n + 1) h).spares_succ hsame).2]
        exact ih
  · have hlatest := (run.bare (n + 1) h).latest
    rw [run.ledger_start_succ n] at hlatest
    omega

theorem tells_of_spec {a : σ} (hspec : (w.state a).operator.spec = (w.state (run.observed (n + 1))).operator.spec)
    (hundeployed : run.Bare (n + 1) → (w.state a).view.deployment? s = none) : run.Tells a := by
  intro hdeployed
  by_cases h : Deployable (w.state (run.observed 0)).operator.spec
  · have hencrypts := run.encrypts_iff n h
    have hdeploys := run.deploys (n + 1) h
    obtain ⟨-, d, hd, -⟩ := hdeploys.deployable
    refine ⟨d, by rwa [Has, hspec], ?_⟩
    rw [← hencrypts]
    by_cases hagree : Encrypts replicas (run.facts (n + 1))
    · exact iff_of_true ((run.stable (n + 1) hd).isSome_of_encrypts hagree) hagree
    · rw [hdeploys.unset hagree d hd]
      exact iff_of_false Bool.false_ne_true hagree
  · exact absurd (hundeployed (run.bare (n + 1) h)) hdeployed

theorem deployment_ended (h : Deployable (w.state (run.observed 0)).operator.spec) :
    (w.state (run.ended n)).view.deployment? s ≠ none := by
  obtain ⟨p, d, hdone⟩ := w.accomplishes_of_completes (run.deploys n h).deployable (run.completes n)
  have hfound : (w.state (run.ended n)).view.deployment? s = some d := hdone.found
  rw [hfound]
  exact Option.some_ne_none d

open Simulation

section InMemory
variable {s : Settings}

def replica (s : Settings) (d : Deployment) : Pod where
  metadata :=
    { name := some s.deploymentName
      space := some s.targetSpace
      labels := d.spec.map (·.template.labels) }
  phase := some "Running"

def renewed (c : Steady s) : Steady s :=
  (c.1.view.deployment? s).elim c fun d => ⟨c.1.setPods [replica s d], c.steady⟩

theorem runsAs_replica (s : Settings) (d : Deployment) : d.RunsAs s (Cache.ofObjects [replica s d]) where
  nonempty := List.cons_ne_nil _ _
  space p hp := by
    obtain rfl := List.mem_singleton.1 hp
    rfl
  phase p hp := by
    obtain rfl := List.mem_singleton.1 hp
    rfl
  undeleted p hp := by
    obtain rfl := List.mem_singleton.1 hp
    rfl
  labelled p hp label value hlabel := by
    obtain rfl := List.mem_singleton.1 hp
    cases hspec : d.spec with
    | none => simp [Deployment.podLabel?, hspec] at hlabel
    | some spec => simpa [Deployment.podLabel?, replica, hspec] using hlabel

theorem replaces_renewed (c : Steady s) : (Steady.keepers s).Replaces c (renewed c) := by
  cases hfound : c.1.view.deployment? s with
  | none =>
    rw [renewed, hfound]
    refine ⟨rfl, rfl, fun d hd => ?_, fun _ => rfl, fun _ _ => id⟩
    cases hfound.symm.trans hd
  | some d =>
    rw [renewed, hfound]
    refine ⟨rfl, rfl, fun d' hd => ?_, fun hnone => ?_, fun call _ h => ?_⟩
    · obtain rfl := Option.some.inj (hfound.symm.trans hd)
      exact runsAs_replica s d
    · cases hfound.symm.trans hnone
    · cases call <;> exact h

theorem healthy_renewed {c : Steady s} (h : c.1.Healthy) : (renewed c).1.Healthy := by
  unfold renewed
  cases c.1.view.deployment? s with
  | none => exact h
  | some d => exact ⟨h.refusals, h.failures, h.conflicts, h.versioned⟩

theorem configMap?_renewed (c : Steady s) (space name : String) :
    (renewed c).1.view.configMap? space name = c.1.view.configMap? space name := by
  unfold renewed
  cases c.1.view.deployment? s <;> rfl

def beginning (order : Nat → List Nat) (c : Steady s) : Nat → Steady s
  | 0 => c
  | n + 1 => renewed ((Steady.keepers s).after (Workload.cycle s)
      ((Steady.keepers s).after (Observer.cycle builtIn s (order n)) (beginning order c n)))

variable {order : Nat → List Nat} {c : Steady s}

theorem healthy_beginning (h : c.1.Healthy) (n : Nat) : (beginning order c n).1.Healthy := by
  induction n with
  | zero => exact h
  | succ n ih => exact healthy_renewed (Steady.healthy_after (Steady.healthy_after ih _) _)

theorem configMap?_beginning {space name : String} (hname : name ≠ s.objects.operandConfig) (n : Nat) :
    (beginning order c n).1.view.configMap? space name = c.1.view.configMap? space name := by
  induction n with
  | zero => rfl
  | succ n ih =>
    have htended := view_cycle (Steady.recorders s) builtIn s (order n) (beginning order c n)
    rw [beginning, configMap?_renewed, Steady.configMap?_after_cycle _ hname, ← ih]
    exact congrArg (fun v => v.configMap? space name) htended

/-- Where nothing is in the way, rounds go on for ever. -/
def inMemory (hs : s.Traceable) (hnames : s.objects.operandConfig ∉
      [s.objects.etcdEndpoints, s.objects.imageConfig, s.objects.ingressConfig, s.objects.projectConfig])
    (horder : ∀ n, (order n).Perm (List.range 5)) (hhealthy : c.1.Healthy)
    (huntouched : c.1.state.Untouched s) : Rounds (Steady.keepers s) where
  start := beginning order c
  order := order
  traceable := hs
  untouched := huntouched
  order_perm := horder
  reads n x hx hfailed :=
    absurd hfailed (Steady.succeeds_observe builtIn (order n) (healthy_beginning hhealthy n) x hx)
  lasts n := by
    rintro ⟨x, hx, hwrite⟩
    exact ⟨x, hx, hwrite, Steady.succeeds_observe builtIn (order n) (healthy_beginning hhealthy n) x hx⟩
  completes n := Collaborators.completes_of_manages _
    (Steady.smooth_cycle s _ (Steady.healthy_after (healthy_beginning hhealthy n) _))
  fixed n := by
    have hkept {space name : String} (hname : name ∈ [s.objects.etcdEndpoints, s.objects.imageConfig,
        s.objects.ingressConfig, s.objects.projectConfig]) :
        (beginning order c n).1.view.configMap? space name = c.1.view.configMap? space name :=
      configMap?_beginning (fun heq => hnames (heq ▸ hname)) n
    show watched s (beginning order c n).1.view = watched s c.1.view
    simp only [watched, hkept, List.mem_cons, true_or, or_true]
  replaced n := replaces_renewed _

end InMemory

theorem traceable_default : ({} : Settings).Traceable :=
  ⟨rfl, by decide, by decide, Steady.snapshotName_not_dependency⟩

/-- A cluster with an ingress domain and these secrets, in which nothing has been deployed yet. -/
def fresh (secrets : Cache Secret) : Steady {} :=
  ⟨{ Cluster.new {} default with
      view := { configMaps := Sequel.moved.1.view.configMaps, secrets } }, rfl, rfl⟩

/-- None of these secrets is named like a snapshot. -/
def Uncopied (secrets : Cache Secret) : Prop :=
  ∀ r : ObjectRef, "encryption-config-".toList <+: r.name.toList → Dict.get? secrets r = none

section Fresh
variable {secrets : Cache Secret} (h : Uncopied secrets)

def ofFresh : Rounds (Steady.keepers {}) :=
  have huntouched : (fresh secrets).1.state.Untouched {} :=
    { managed := rfl
      unrecorded := rfl
      unset := fun d hd => by
        obtain rfl := Except.ok.inj hd
        rfl
      undeployed := rfl
      podless := rfl
      uncopied := h }
  inMemory traceable_default (by decide) (fun _ => .refl (List.range 5)) ⟨fun _ => rfl, rfl, rfl, rfl⟩ huntouched

theorem deployable_ofFresh :
    Workload.Deployable ((Steady.keepers {}).state ((ofFresh h).observed 0)).operator.spec := by
  have hempty : Has ((Steady.keepers {}).state ((ofFresh h).start 0)) ∅ := rfl
  have hmoved : (Sequel.moved.1.view.configMap? "openshift-config" "ingress-config").map (·.value? "domain") =
      some (some "apps.example.com") := by decide +kernel
  obtain ⟨cm, hcm, hdomain⟩ := Option.map_eq_some_iff.1 hmoved
  have hfound : ((ofFresh h).facts 0).view.configMap? ((ofFresh h).facts 0).settings.configSpace
      ((ofFresh h).facts 0).settings.objects.ingressConfig = some cm := hcm
  apply (ofFresh h).deployable_of_seen hempty (o := ingress) (by simp [builtInOver])
    (List.mem_singleton_self subdomain)
  intro d
  have hseen : (ingress.observe ((ofFresh h).facts 0) d).config =
      Document.set ∅ subdomain (.str "apps.example.com") := by simp only [ingress, hfound, hdomain]
  rw [hseen]
  rfl

end Fresh

theorem uncopied_config (text : String) : Uncopied (Cache.put ∅ (Steady.config text)) := by
  intro r h
  have hother : ¬"encryption-config-".toList <+: Steady.configRef.name.toList := by decide
  have hne : r ≠ objectRef (Steady.config text) := by
    rintro rfl
    exact hother h
  simp [Cache.put, hne]

def encrypting : Rounds (Steady.keepers {}) := ofFresh (uncopied_config "kind: EncryptionConfiguration")

theorem encrypted_encrypting : encrypting.Encrypted := by
  have hdecodes : (Steady.config "kind: EncryptionConfiguration").encryptionConfig.toOption.isSome := by
    decide +kernel
  cases hc : (Steady.config "kind: EncryptionConfiguration").encryptionConfig with
  | error e => simp [hc, Except.toOption] at hdecodes
  | ok c => exact ⟨rfl, _, c, Cluster.within?_put ∅ (Steady.config "kind: EncryptionConfiguration") rfl, hc⟩

def unsecured : Rounds (Steady.keepers {}) := ofFresh fun _ _ => Dict.get?_empty _

end Rounds

end RolloutControl
