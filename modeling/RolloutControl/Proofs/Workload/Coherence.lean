import Mathlib.Data.List.Count
import Mathlib.Data.List.Nodup
import RolloutControl.Proofs.Cluster.Labels
import RolloutControl.Workload.Rollout
/-! Whether the parts of a rollout fit together. The replicas carry what the deployment, the service in front of them
and the lookup of replicas select them by, and every mount has a volume of its own, exactly if the settings do not ask
for two things of one name. -/

namespace RolloutControl.Rollout

variable {s : Settings} {revision : Int}

/-- The parts of a rollout fit together, as far as they refer to each other. -/
structure Coherent (s : Settings) (revision : Int) (spec : DeploymentSpec) : Prop where
  selector : spec.selector.Within spec.template.labels
  service : ∀ space name selector, Manifest.service space name selector ∈ Operand.manifests s →
    selector.Within spec.template.labels
  replicas : s.encryption.podSelector.Within spec.template.labels
  revision : spec.template.labels.get? s.encryption.revisionLabel = some (Text.integer revision)
  volumes : (spec.template.volumes.map (·.name)).Nodup
  mounts : ∀ m ∈ spec.template.mounts, spec.template.volumes.countP (·.name = m.volume) = 1
  paths : (spec.template.mounts.map (·.path)).Nodup

/-- The names of all that is mounted. -/
def mounted (s : Settings) : List String := s.objects.dependencyConfigMaps ++ s.objects.dependencySecrets

/-- The settings do not ask for two things of one name in the rollout of a revision. -/
structure Unambiguous (s : Settings) (revision : Int) : Prop where
  label : ∀ value, (selector s).get? s.encryption.revisionLabel = some value → value = Text.integer revision
  app : ∀ name, s.encryption.podSelector.get? "app" = some name → name = s.deploymentName
  names : (mounted s).Nodup

def labels (s : Settings) (revision : Int) : Labels :=
  (selector s).insert s.encryption.revisionLabel (Text.integer revision)

theorem podSelector_within_selector_iff :
    s.encryption.podSelector.Within (selector s) ↔
      ∀ name, s.encryption.podSelector.get? "app" = some name → name = s.deploymentName :=
  Dict.within_insert_iff

theorem selector_within_labels_iff :
    (selector s).Within (labels s revision) ↔
      ∀ value, (selector s).get? s.encryption.revisionLabel = some value → value = Text.integer revision :=
  Dict.within_insert_iff

/-- If the revision overwrites nothing, then what replicas are looked up by is not overwritten before either. -/
theorem podSelector_within_selector (h : (selector s).Within (labels s revision))
    (hreplicas : s.encryption.podSelector.Within (labels s revision)) :
    s.encryption.podSelector.Within (selector s) := by
  refine podSelector_within_selector_iff.2 fun name hname => ?_
  have hcarried : (labels s revision).get? "app" = some name := hreplicas "app" name hname
  have happ : (labels s revision).get? "app" = some s.deploymentName := h "app" _ (by simp [selector])
  exact Option.some.inj (hcarried.symm.trans happ)

@[simp] theorem map_name_files (s : Settings) (revision : Int) :
    (files s revision).map (fun f => f.1.name) = mounted s := by
  simp [files, mounted, configMapFiles, secretFiles, Function.comp_def]

@[simp] theorem map_volume_files (s : Settings) (revision : Int) :
    (files s revision).map (fun f => f.2.volume) = mounted s := by
  simp [files, mounted, configMapFiles, secretFiles, Function.comp_def]

theorem map_path_files (s : Settings) (revision : Int) :
    (files s revision).map (fun f => f.2.path) =
      s.objects.dependencyConfigMaps.map ("/var/run/configmaps/" ++ ·) ++
        s.objects.dependencySecrets.map ("/var/run/secrets/" ++ ·) := by
  simp [files, configMapFiles, secretFiles, Function.comp_def]

/-- Config maps and secrets are mounted in different places. -/
theorem configMap_path_ne_secret_path (a b : String) : "/var/run/configmaps/" ++ a ≠ "/var/run/secrets/" ++ b := by
  intro h
  have hchars := congrArg String.toList h
  simp at hchars

theorem nodup_paths (s : Settings) (revision : Int) (h : (mounted s).Nodup) :
    ((files s revision).map (fun f => f.2.path)).Nodup := by
  obtain ⟨hmaps, hsecrets, -⟩ := List.nodup_append.1 h
  have hinjective (place : String) : Function.Injective (place ++ ·) := fun a b hab => by simpa using hab
  rw [map_path_files]
  refine List.nodup_append.2 ⟨hmaps.map (hinjective _), hsecrets.map (hinjective _), ?_⟩
  intro p hp q hq hpq
  obtain ⟨a, -, rfl⟩ := List.mem_map.1 hp
  obtain ⟨b, -, rfl⟩ := List.mem_map.1 hq
  exact configMap_path_ne_secret_path a b hpq

theorem countP_volumes (s : Settings) (revision : Int) (name : String) :
    ((files s revision).map (·.1)).countP (·.name = name) = (mounted s).count name := by
  rw [← map_name_files s revision, List.count, List.countP_map, List.countP_map]
  rfl

theorem coherent_of_unambiguous (h : Unambiguous s revision) {spec : DeploymentSpec} {logLevel : LogLevel}
    {digests : Dependencies} {proxy : List (String × String)}
    (hspec : (deployment s logLevel revision digests proxy).spec = some spec) : Coherent s revision spec := by
  obtain rfl := Option.some.inj hspec
  have hselector : (selector s).Within (labels s revision) := selector_within_labels_iff.2 h.label
  have hreplicas : s.encryption.podSelector.Within (labels s revision) :=
    (podSelector_within_selector_iff.2 h.app).trans hselector
  exact
    { selector := hselector
      service := fun space name selector hmem => by
        simp only [Operand.manifests, List.mem_cons, reduceCtorEq, Manifest.service.injEq, false_or, List.not_mem_nil,
          or_false] at hmem
        rw [hmem.2.2]
        exact hreplicas
      replicas := hreplicas
      revision := by simp
      volumes := by simpa [Function.comp_def] using h.names
      mounts := fun m hm => by
        have hname : m.volume ∈ mounted s := by
          rw [← map_volume_files s revision]
          obtain ⟨f, hf, rfl⟩ := List.mem_map.1 hm
          exact List.mem_map_of_mem hf
        rw [countP_volumes]
        exact List.count_eq_one_of_mem h.names hname
      paths := by simpa [Function.comp_def] using nodup_paths s revision h.names }

theorem unambiguous_of_coherent {spec : DeploymentSpec} {logLevel : LogLevel} {digests : Dependencies}
    {proxy : List (String × String)} (hspec : (deployment s logLevel revision digests proxy).spec = some spec)
    (h : Coherent s revision spec) : Unambiguous s revision := by
  obtain rfl := Option.some.inj hspec
  have hselector : (selector s).Within (labels s revision) := h.selector
  exact
    { label := selector_within_labels_iff.1 hselector
      app := podSelector_within_selector_iff.1 (podSelector_within_selector hselector h.replicas)
      names := by simpa [Function.comp_def] using h.volumes }

/-- A label that is the same for every revision is none that a selector asks for. -/
theorem unambiguous_forall_iff (s : Settings) :
    (∀ revision, Unambiguous s revision) ↔
      (selector s).get? s.encryption.revisionLabel = none ∧
      (∀ name, s.encryption.podSelector.get? "app" = some name → name = s.deploymentName) ∧ (mounted s).Nodup := by
  constructor
  · intro h
    refine ⟨?_, (h 1).app, (h 1).names⟩
    rw [Option.eq_none_iff_forall_ne_some]
    intro value hvalue
    have hrevisions : Text.integer 1 = Text.integer 2 :=
      ((h 1).label value hvalue).symm.trans ((h 2).label value hvalue)
    exact absurd (Text.integer_injective hrevisions) (by decide)
  · rintro ⟨hlabel, happ, hnames⟩ revision
    refine ⟨fun value hvalue => ?_, happ, hnames⟩
    rw [hlabel] at hvalue
    cases hvalue

/-- A rollout is coherent exactly if the settings are unambiguous for its revision. All rollouts are exactly if no
selector uses the label of the revision, the replicas are not looked for under another name, and no two things that
are mounted have the same name. -/
theorem coherent_iff_unambiguous (s : Settings) :
    (∀ logLevel revision digests proxy, ∃ spec, (deployment s logLevel revision digests proxy).spec = some spec ∧
      (Coherent s revision spec ↔ Unambiguous s revision)) ∧
    ((∀ logLevel revision digests proxy, ∃ spec, (deployment s logLevel revision digests proxy).spec = some spec ∧
        Coherent s revision spec) ↔
      (selector s).get? s.encryption.revisionLabel = none ∧
      (∀ name, s.encryption.podSelector.get? "app" = some name → name = s.deploymentName) ∧ (mounted s).Nodup) := by
  refine ⟨fun logLevel revision digests proxy =>
    ⟨_, rfl, unambiguous_of_coherent rfl, fun h => coherent_of_unambiguous h rfl⟩, ?_⟩
  rw [← unambiguous_forall_iff]
  constructor
  · intro h revision
    obtain ⟨spec, hspec, hcoherent⟩ := h .normal revision ∅ []
    exact unambiguous_of_coherent hspec hcoherent
  · exact fun h logLevel revision digests proxy => ⟨_, rfl, coherent_of_unambiguous (h revision) rfl⟩

/-- The settings that hold unless others are asked for are fine for every revision. -/
example (revision : Int) : Unambiguous {} revision := by
  have happ : ({} : Settings).encryption.podSelector.get? "app" = none := by decide +kernel
  exact (unambiguous_forall_iff {}).2 ⟨by decide +kernel, by simp [happ], by decide +kernel⟩ revision

/-- The replicas are to be looked for under another name than that of the deployment. -/
def frontend : Settings :=
  { encryption := { podSelector := Dict.ofList [("apiserver", "true"), ("app", "frontend")] } }

/-- Settings that are valid, and a service in front of no replica. -/
theorem service_without_replicas : frontend.validate = .ok () ∧
    ∃ spec, (deployment frontend .normal 1 ∅ []).spec = some spec ∧ ¬Coherent frontend 1 spec := by
  have hservice : Manifest.service frontend.targetSpace frontend.objects.service frontend.encryption.podSelector ∈
      Operand.manifests frontend := by simp [Operand.manifests]
  refine ⟨by decide +kernel, _, rfl, fun h => ?_⟩
  have hcarried := h.service _ _ _ hservice "app" "frontend" (by decide +kernel)
  exact absurd hcarried (by decide +kernel)

end RolloutControl.Rollout
