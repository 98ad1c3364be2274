import RolloutControl.Proofs.Encryption.Agreement
import RolloutControl.Proofs.Workload.Turn
/-! From the replicas of a revision back to its snapshot. A rollout takes the place of the snapshot, the labels of the
replicas and their selector from other settings than those by which the replicas are looked up afterwards. What
is found is what was copied exactly if these settings fit together, and otherwise no replica is found at all. -/

namespace RolloutControl

/-- A pod that runs as the template of a deployment says. -/
structure Pod.Replicates (s : Settings) (d : Deployment) (p : Pod) : Prop where
  space : p.metadata.space = some s.targetSpace
  phase : p.phase = some "Running"
  undeleted : p.metadata.deleted = none
  labels : p.metadata.labels = d.spec.map (·.template.labels)

/-- A revision of which replicas run and nothing else does, and whose snapshot is held if one was taken. -/
structure RunningRevision (s : Settings) where
  revision : Int
  positive : 1 ≤ revision
  /-- What the caches held when the snapshot was to be taken. -/
  origin : ClusterView
  logLevel : LogLevel
  digests : Dependencies
  proxy : List (String × String)
  /-- What the caches hold by now. -/
  view : ClusterView
  stored : ∀ x, Rollout.snapshot? origin s revision = some x → Dict.get? view.secrets (objectRef x) = some x
  unmixed : ∀ r : ObjectRef, r.name = Rollout.snapshotName s revision →
    (∀ x, Rollout.snapshot? origin s revision = some x → objectRef x ≠ r) → Dict.get? view.secrets r = none
  nonempty : view.pods.list ≠ []
  replicas : ∀ p ∈ view.pods.list, p.Replicates s (Rollout.deployment s logLevel revision digests proxy)

/-- The place of the snapshots is where the replicas are looked for, and every revision gives its replicas all that
they are selected by. -/
structure Settings.Fitting (s : Settings) : Prop where
  space : s.encryption.space = s.targetSpace
  label : s.encryption.podSelector.get? s.encryption.revisionLabel = none
  app : ∀ name, s.encryption.podSelector.get? "app" = some name → name = s.deploymentName

namespace RunningRevision

variable {s : Settings}

def labels (x : RunningRevision s) : Labels :=
  (Rollout.selector s).insert s.encryption.revisionLabel (Text.integer x.revision)

theorem labels_of_mem (x : RunningRevision s) {p : Pod} (hp : p ∈ x.view.pods.list) :
    p.metadata.labels = some x.labels :=
  (x.replicas p hp).labels

/-- The replicas are found where they run, by labels that they carry. -/
def Found (x : RunningRevision s) : Prop :=
  s.encryption.space = s.targetSpace ∧ Cache.selects s.encryption.podSelector (some x.labels)

instance (x : RunningRevision s) : Decidable x.Found := inferInstanceAs (Decidable (_ ∧ _))

def report (x : RunningRevision s) : ConvergenceReport := (DeployedSource.ofReplicas x.view s.encryption).report

theorem secret?_eq (x : RunningRevision s) :
    x.view.secret? s.targetSpace (Rollout.snapshotName s x.revision) = Rollout.snapshot? x.origin s x.revision := by
  have hspaceless : Dict.get? x.view.secrets ⟨Rollout.snapshotName s x.revision, none⟩ = none := by
    refine x.unmixed _ rfl fun y hy he => ?_
    rw [(Rollout.snapshot?_eq_some hy).1] at he
    cases (ObjectRef.mk.inj he).2
  have hplace : Dict.get? x.view.secrets (snapshotRef s x.revision) = Rollout.snapshot? x.origin s x.revision := by
    cases hsnapshot : Rollout.snapshot? x.origin s x.revision with
    | none => exact x.unmixed _ rfl fun y hy => by rw [hsnapshot] at hy; cases hy
    | some y => rw [← (Rollout.snapshot?_eq_some hsnapshot).1, x.stored y hsnapshot]
  calc
    _ = (Dict.get? x.view.secrets (snapshotRef s x.revision) <|>
        Dict.get? x.view.secrets ⟨Rollout.snapshotName s x.revision, none⟩) := rfl
    _ = Rollout.snapshot? x.origin s x.revision := by simp [hplace, hspaceless]

/-- Replicas that are found stand for the snapshot. -/
theorem report_of_found (x : RunningRevision s) (h : x.Found) :
    x.report = .ok (.settled (Rollout.snapshot? x.origin s x.revision)) := by
  have hruns : ∀ p ∈ x.view.pods.list, DeployedSource.Runs s.encryption (Text.integer x.revision) p := fun p hp =>
    { space := by rw [h.1]; exact (x.replicas p hp).space
      phase := (x.replicas p hp).phase
      undeleted := (x.replicas p hp).undeleted
      selected := by rw [x.labels_of_mem hp]; exact h.2
      labelled := by simp [x.labels_of_mem hp, labels] }
  rw [report, DeployedSource.report_of_runs x.nonempty hruns, h.1]
  exact congrArg (fun y => Except.ok (Convergence.settled y)) x.secret?_eq

/-- Replicas that are not found are taken for replicas that do not run yet. -/
theorem report_of_not_found (x : RunningRevision s) (h : ¬x.Found) : x.report = .ok .unsettled := by
  have hnone : Cache.listMatching x.view.pods s.encryption.space s.encryption.podSelector = [] := by
    refine List.filter_eq_nil_iff.2 fun p hp hmatches => h ?_
    rw [Bool.and_eq_true, decide_eq_true_eq] at hmatches
    obtain ⟨hspace, hselected⟩ := hmatches
    refine ⟨Option.some.inj (hspace.symm.trans (x.replicas p hp).space), ?_⟩
    rw [← x.labels_of_mem hp]
    exact hselected
  rw [report, DeployedSource.ofReplicas, hnone]
  rfl

theorem found_of_fitting (h : s.Fitting) (x : RunningRevision s) : x.Found := by
  have hlabel : ∀ value, s.encryption.podSelector.get? s.encryption.revisionLabel = some value →
      value = Text.integer x.revision := by simp [h.label]
  have hselector : s.encryption.podSelector.Within (Rollout.selector s) := (Dict.Within.refl _).insert h.app
  exact ⟨h.space, Cache.selects_iff_within.2 (hselector.insert hlabel)⟩

def plain (s : Settings) (revision : Int) (h : 1 ≤ revision) : RunningRevision s :=
  let deployment := Rollout.deployment s .normal revision ∅ []
  let pod : Pod :=
    { metadata :=
        { name := some s.deploymentName
          space := some s.targetSpace
          labels := deployment.spec.map (·.template.labels) }
      phase := some "Running" }
  { revision
    positive := h
    origin := {}
    logLevel := .normal
    digests := ∅
    proxy := []
    view := { pods := Cache.ofObjects [pod] }
    stored := fun x hx => by cases hx
    unmixed := fun _ _ _ => rfl
    nonempty := List.cons_ne_nil _ _
    replicas := fun p hp => by
      obtain rfl := List.mem_singleton.1 hp
      exact ⟨rfl, rfl, rfl, rfl⟩ }

theorem get?_labels_of_found {x : RunningRevision s} (h : x.Found) {label value : String}
    (hselector : s.encryption.podSelector.get? label = some value) : x.labels.get? label = some value :=
  Cache.selects_iff_within.1 h.2 label value hselector

theorem fitting_of_found (h : ∀ x : RunningRevision s, x.Found) : s.Fitting := by
  have hlabel : s.encryption.podSelector.get? s.encryption.revisionLabel = none := by
    cases hselector : s.encryption.podSelector.get? s.encryption.revisionLabel with
    | none => rfl
    | some value =>
      -- a selector that asks for one revision misses the next one
      have hfirst := get?_labels_of_found (h (plain s 1 (by decide))) hselector
      have hsecond := get?_labels_of_found (h (plain s 2 (by decide))) hselector
      simp only [labels, plain, Dict.get?_insert, if_true, Option.some.injEq] at hfirst hsecond
      exact absurd (Text.integer_injective (hfirst.trans hsecond.symm)) (by decide)
  refine ⟨(h (plain s 1 (by decide))).1, hlabel, fun name hname => ?_⟩
  have hne : "app" ≠ s.encryption.revisionLabel := by
    rintro heq
    rw [heq, hlabel] at hname
    cases hname
  have happ := get?_labels_of_found (h (plain s 1 (by decide))) hname
  simpa [labels, Rollout.selector, hne, eq_comm] using happ

/-- The replicas of a revision lead back to its snapshot, or to none if none was taken, exactly if they are found.
All revisions can be traced like this exactly if the settings fit together. -/
theorem snapshot_traced_iff (s : Settings) :
    (∀ x : RunningRevision s, x.report =
      if x.Found then .ok (.settled (Rollout.snapshot? x.origin s x.revision)) else .ok .unsettled) ∧
    ((∀ x : RunningRevision s, x.report = .ok (.settled (Rollout.snapshot? x.origin s x.revision))) ↔
      s.Fitting) := by
  have hreport (x : RunningRevision s) : x.report =
      if x.Found then .ok (.settled (Rollout.snapshot? x.origin s x.revision)) else .ok .unsettled := by
    split
    · exact x.report_of_found ‹_›
    · exact x.report_of_not_found ‹_›
  refine ⟨hreport, fun h => fitting_of_found fun x => ?_, fun h x => x.report_of_found (found_of_fitting h x)⟩
  by_contra hmissed
  have hsettled := (x.report_of_not_found hmissed).symm.trans (h x)
  cases hsettled

/-- Replicas run in one namespace and are looked for in another one. -/
def elsewhere : Settings := { encryption := { space := "elsewhere" } }

/-- Settings that are valid do not lead back to the snapshot. -/
theorem replicas_not_found_elsewhere : elsewhere.validate = .ok () ∧
    (plain elsewhere 1 (by decide)).report = .ok .unsettled := by
  refine ⟨by decide +kernel, report_of_not_found _ fun h => ?_⟩
  exact absurd h.1 (by decide)

end RunningRevision

end RolloutControl
