import RolloutControl.Proofs.Simulation.Steady
import RolloutControl.Proofs.Workload.Keeping
/-! The cluster in memory keeps what has been applied. Whatever it has been told to refuse it goes on refusing,
calls of the operator resource that are going to fail only get fewer, and discovery answers as before. -/

namespace RolloutControl.Simulation

namespace Cluster

theorem matches_of_isUpToDate {existing wanted : Deployment} (h : isUpToDate existing wanted = true) :
    existing.Matches wanted := by
  simp only [isUpToDate, Bool.and_eq_true, decide_eq_true_eq] at h
  obtain ⟨⟨hspec, hannotations⟩, hlabels⟩ := h
  exact ⟨hspec, hlabels, hannotations⟩

theorem isUpToDate_of_matches {existing wanted : Deployment} (h : existing.Matches wanted) :
    isUpToDate existing wanted = true := by
  simp [isUpToDate, h.spec, h.annotations, h.labels]

theorem applyDeployment_matches {c : Cluster} {d d' : Deployment} {expected : Option Int} {force changed : Bool}
    (h : (c.applyDeployment d expected force).1 = .ok (d', changed)) :
    d'.Matches d ∧ (force = true → d'.metadata.generation.isSome) := by
  have hrolled (b : Cluster) (generation : Int) : (b.rolledOut d generation).Matches d ∧
      (force = true → (b.rolledOut d generation).metadata.generation.isSome) := ⟨⟨rfl, rfl, rfl⟩, fun _ => rfl⟩
  simp only [applyDeployment] at h
  split at h
  · cases h
  · split at h
    · cases h
      exact hrolled _ _
    · split at h
      · next hok =>
        simp only [Bool.and_eq_true, Bool.not_eq_true'] at hok
        cases h
        exact ⟨matches_of_isUpToDate hok.1, fun hforce => absurd hok.2 (by simp [hforce])⟩
      · cases h
        exact hrolled _ _

theorem applyDeployment_of_matches {c : Cluster} {d d' : Deployment} (expected : Option Int)
    (hfound : c.deployment? = some d') (hmatches : d'.Matches d) (hrefused : c.refusals .deployment = none) :
    c.applyDeployment d expected false =
      (.ok (d', false), { c with applies := c.applies ++ [⟨expected, false, c.now⟩] }) := by
  have hfound' : Cluster.deployment? { c with applies := c.applies ++ [⟨expected, false, c.now⟩] } =
      some d' := hfound
  simp only [applyDeployment, hrefused, hfound', isUpToDate_of_matches hmatches]
  rfl

/-- What keeps the cluster from doing as it is told, for calls that would be done otherwise. -/
def Hindered (c : Cluster) : Call → Prop
  | .getOperator => ∃ f ∈ c.failures, f.1 = .get
  | .applyManifest m => (c.refusals (kindOf m)).isSome
  | .applyConfigMap _ => (c.refusals .configMap).isSome
  | .applyDeployment _ _ _ => (c.refusals .deployment).isSome
  | _ => True

theorem failed_read_iff {c : Cluster} (h : c.races = []) :
    Call.Failed .getOperator (answer .getOperator c).1 ↔ c.Hindered .getOperator := by
  unfold answer read
  simp only [takeFailure, Hindered]
  cases hfailure : c.failures.find? fun f => f.1 = .get with
  | some f =>
    have hget : f.1 = .get := by simpa using List.find?_some hfailure
    simp only [Option.map_some, Call.Failed, true_iff]
    exact ⟨f, List.mem_of_find?_eq_some hfailure, hget⟩
  | none =>
    have hnone : ¬∃ f ∈ c.failures, f.1 = .get := by
      rintro ⟨f, hf, hget⟩
      exact List.find?_eq_none.1 hfailure f hf (by simpa using hget)
    simp only [Option.map_none, h, Call.Failed, hnone]

theorem failed_applyDeployment_iff (c : Cluster) (d : Deployment) (expected : Option Int) (force : Bool) :
    Call.Failed (.applyDeployment d expected force) (answer (.applyDeployment d expected force) c).1 ↔
      (c.refusals .deployment).isSome := by
  unfold answer applyDeployment
  cases hrefused : c.refusals .deployment with
  | some message => simp [Call.Failed, hrefused]
  | none =>
    simp only [hrefused]
    split
    · simp [Call.Failed]
    · split <;> simp [Call.Failed]

theorem failed_iff {c : Cluster} (h : c.races = []) {call : Call} (hcall : call.Lasting) :
    call.Failed (answer call c).1 ↔ c.Hindered call := by
  cases call with
  | getOperator => exact failed_read_iff h
  | applyManifest m =>
    cases hrefused : c.refusals (kindOf m) <;> simp [answer, applyTo, Hindered, hrefused, Call.Failed]
  | applyConfigMap cm =>
    cases hrefused : c.refusals .configMap <;> simp [answer, applyTo, Hindered, hrefused, Call.Failed]
  | applyDeployment d expected force => exact failed_applyDeployment_iff c d expected force
  | _ => exact hcall.elim

end Cluster

namespace Steady

open Cluster

variable {s : Settings}

/-- What keeps a cluster from doing as it is told: no call adds to it. -/
structure NoWorse (b c : Cluster) : Prop where
  refusals : b.refusals = c.refusals
  silent : b.silent = c.silent
  failures : ∀ f ∈ b.failures, f ∈ c.failures
  conflicts : b.conflicts ≤ c.conflicts
  versioned : c.operator.metadata.resourceVersion.isSome → b.operator.metadata.resourceVersion.isSome

theorem noWorse_of_eq {b c : Cluster} (hrefusals : b.refusals = c.refusals) (hsilent : b.silent = c.silent)
    (hfailures : b.failures = c.failures) (hconflicts : b.conflicts = c.conflicts)
    (hoperator : b.operator = c.operator) : NoWorse b c :=
  ⟨hrefusals, hsilent, fun _ hf => hfailures ▸ hf, Nat.le_of_eq hconflicts, fun h => hoperator ▸ h⟩

theorem takeFailure_noWorse {c d : Cluster} {call : ResourceCall} {e : Error}
    (h : c.takeFailure call = some (e, d)) : NoWorse d c := by
  obtain ⟨f, -, hf⟩ := Option.map_eq_some_iff.1 h
  obtain rfl := (Prod.mk.inj hf).2
  exact ⟨rfl, rfl, fun _ => List.mem_of_mem_eraseP, Nat.le_refl _, id⟩

theorem guarded_noWorse (c : Cluster) (call : ResourceCall) (version : String) {write : Cluster → Cluster}
    (hwrite : NoWorse (write c) c) : NoWorse (c.guarded call version write).2 c := by
  unfold guarded
  split
  · next e d h => exact takeFailure_noWorse h
  · split
    · exact ⟨rfl, rfl, fun _ => id, Nat.sub_le _ _, id⟩
    · split
      · exact noWorse_of_eq rfl rfl rfl rfl rfl
      · exact hwrite

theorem answer_noWorse (call : Call) (c : Steady s) : NoWorse (answer call c.1).2 c.1 := by
  obtain ⟨c, hc⟩ := c
  cases call with
  | getOperator =>
    change NoWorse c.read.2 c
    unfold Cluster.read
    dsimp only
    split
    · next e d h =>
      have hworse : NoWorse d { c with reads := c.reads + 1 } := takeFailure_noWorse h
      exact ⟨hworse.refusals, hworse.silent, hworse.failures, hworse.conflicts, hworse.versioned⟩
    · rw [hc.2]
      exact noWorse_of_eq rfl rfl rfl rfl rfl
  | writeSpec version spec =>
    exact guarded_noWorse c .updateSpec version ⟨rfl, rfl, fun _ => id, Nat.le_refl _, fun _ => rfl⟩
  | writeStatus version status =>
    exact guarded_noWorse c .updateStatus version ⟨rfl, rfl, fun _ => id, Nat.le_refl _, fun _ => rfl⟩
  | applyManifest m =>
    obtain ⟨l, hafter⟩ := applyManifest_cases m c
    rcases c.applyTo_cases (kindOf m) (Cluster.applyManifest m) with ⟨e, h⟩ | h <;>
      (simp only [answer, h, hafter]; exact noWorse_of_eq rfl rfl rfl rfl rfl)
  | applyConfigMap cm =>
    obtain ⟨l, hafter⟩ := applyConfigMap_cases cm c
    rcases c.applyTo_cases .configMap (Cluster.applyConfigMap cm) with ⟨e, h⟩ | h <;>
      (simp only [answer, h, hafter]; exact noWorse_of_eq rfl rfl rfl rfl rfl)
  | applySecret x =>
    obtain ⟨l, hafter, -⟩ := applySecret_cases x c
    rcases c.applyTo_cases .secret (Cluster.applySecret x) with ⟨e, h⟩ | h <;>
      (simp only [answer, h, hafter]; exact noWorse_of_eq rfl rfl rfl rfl rfl)
  | applyDeployment d expected force =>
    obtain ⟨l, ⟨e, h⟩ | ⟨d', changed, m, h, -⟩⟩ := c.applyDeployment_cases d expected force <;>
      (simp only [answer, h]; exact noWorse_of_eq rfl rfl rfl rfl rfl)
  | view | clock | probe | publish | sleep => exact noWorse_of_eq rfl rfl rfl rfl rfl

theorem NoWorse.hindered {b c : Cluster} (h : NoWorse b c) {call : Call} (hb : b.Hindered call) :
    c.Hindered call := by
  cases call with
  | getOperator =>
    obtain ⟨f, hf, hget⟩ := hb
    exact ⟨f, h.failures f hf, hget⟩
  | applyManifest | applyConfigMap | applyDeployment =>
    unfold Hindered at hb ⊢
    rwa [← h.refusals]
  | _ => exact hb

/-- The cluster in memory keeps what it is given. -/
def keepers (s : Settings) : Keepers s (Steady s) where
  toAppliers := appliers s
  deployed d expected force c d' changed h := applyDeployment_matches h
  undisturbed d expected c d' href hfound hmatches hok := by
    obtain ⟨c, rfl, hraces⟩ := c
    have hrefused : c.refusals .deployment = none := by
      simpa using mt (failed_applyDeployment_iff c d expected false).2 hok
    have hanswer := applyDeployment_of_matches expected hfound hmatches hrefused
    exact ⟨congrArg Prod.fst hanswer, congrArg (fun x => x.2.state) hanswer⟩
  lasting call call' c hcall hok hfailed := by
    have hafter : (answer call' c.1).2.races = [] := (answer_steady call' c).2
    have hhindered : (answer call' c.1).2.Hindered call := (failed_iff hafter hcall).1 hfailed
    exact hok ((failed_iff c.2.2 hcall).2 ((answer_noWorse call' c).hindered hhindered))
  willing d expected force d' expected' force' c hok hfailed := by
    have hrefused := (failed_applyDeployment_iff c.1 d' expected' force').1 hfailed
    exact hok ((failed_applyDeployment_iff c.1 d expected force).2 hrefused)
  discovery gv call c := by
    have hsilent := (answer_noWorse call c).silent
    change (if (answer call c.1).2.silent.contains gv then _ else _) = if c.1.silent.contains gv then _ else _
    rw [hsilent]

end Steady

end RolloutControl.Simulation
