import RolloutControl.Proofs.Digest.Dependencies
/-! What a rollout finds changed. The digests on a deployment are the ones it was made with, whatever annotations others
have added since, and the keys that count as changed are those of the objects whose digests are not the same any more,
objects that have come or gone among them. -/

namespace RolloutControl

/-- The deployment with annotations that somebody else has added. -/
def Deployment.annotate (d : Deployment) (added : List (String × String)) : Deployment :=
  { d with metadata := { d.metadata with annotations := some ((d.metadata.annotations.getD ∅).insertAll added) } }

namespace Rollout

variable {v w : ClusterView} {s : Settings} {added : List (String × String)}

/-- None of the annotations begins with the mark of a dependency. -/
def Foreign (added : List (String × String)) : Prop :=
  ∀ e ∈ added, ∀ key, e.1 ≠ Dependencies.annotationMark ++ key

theorem foreign_iff : Foreign added ↔ ∀ e ∈ added, Dependencies.afterMark? e.1 = none := by
  refine forall₂_congr fun e _ => ?_
  rw [Option.eq_none_iff_forall_ne_some]
  exact forall_congr' fun key => not_congr Dependencies.afterMark?_eq_some.symm

instance : Decidable (Foreign added) := decidable_of_iff _ foreign_iff.symm

theorem recordedDependencies_annotate (h : Foreign added) (d : Deployment) :
    recordedDependencies (d.annotate added) = recordedDependencies d := by
  ext1 key
  rw [recordedDependencies, recordedDependencies, Dependencies.get?_ofAnnotations, Dependencies.get?_ofAnnotations]
  exact Dict.get?_foldl_insert_of_ne (fun e he => h e he key) _

/-- Whatever exists has a digest that is not empty. -/
theorem digest?_ne_some_empty (v : ClusterView) (s : Settings) (x : DependencyKind × String) :
    digest? v s x ≠ some "" := by
  obtain ⟨kind, name⟩ := x
  cases kind with
  | configMap => simp [digest?, ConfigMap.digest, Digest.ofEntries, Sha256.hex_ne_empty]
  | secret => simp [digest?, Secret.digest, Digest.ofEntries, Sha256.hex_ne_empty]

theorem getD_digest?_inj {x : DependencyKind × String} :
    (digest? v s x).getD "" = (digest? w s x).getD "" ↔ digest? v s x = digest? w s x := by
  have hv := digest?_ne_some_empty v s x
  have hw := digest?_ne_some_empty w s x
  cases hx : digest? v s x with
  | none =>
    cases hy : digest? w s x with
    | none => simp
    | some d => simpa [eq_comm, hy] using hw
  | some d =>
    cases hy : digest? w s x with
    | none => simpa [hx] using hv
    | some e => simp

theorem mem_changedFrom_dependencies {k : String} :
    k ∈ (dependencies w s).changedFrom (dependencies v s) ↔
      ∃ x ∈ inputs s, k = keyOf s x ∧ digest? v s x ≠ digest? w s x := by
  rw [Dependencies.mem_changedFrom]
  constructor
  · intro hne
    by_cases hkey : ∀ x ∈ inputs s, keyOf s x ≠ k
    · rw [get?_dependencies_of_ne hkey, get?_dependencies_of_ne hkey] at hne
      exact absurd rfl hne
    · obtain ⟨x, hx, rfl⟩ : ∃ x ∈ inputs s, keyOf s x = k := by simpa using hkey
      rw [get?_dependencies_keyOf hx, get?_dependencies_keyOf hx] at hne
      exact ⟨x, hx, rfl, fun he => hne (congrArg some (getD_digest?_inj.2 he.symm))⟩
  · rintro ⟨x, hx, rfl, hne⟩
    rw [get?_dependencies_keyOf hx, get?_dependencies_keyOf hx]
    exact fun he => hne (getD_digest?_inj.1 (Option.some.inj he)).symm

/-- A deployment tells what it was made with, and with that, exactly what has changed since is found, each key once and
in order. Nothing counts as changed only between equal digests, and change has no direction. -/
theorem changes_are_detected (s : Settings) (logLevel : LogLevel) (revision : Int) (proxy : List (String × String))
    (v w : ClusterView) (added : List (String × String)) (hadded : Foreign added) :
    let recorded := recordedDependencies ((deployment s logLevel revision (dependencies v s) proxy).annotate added)
    recorded = dependencies v s ∧
    ((dependencies w s).changedFrom recorded).Pairwise (· < ·) ∧
    (∀ k, k ∈ (dependencies w s).changedFrom recorded ↔
      ∃ x ∈ inputs s, k = keyOf s x ∧ digest? v s x ≠ digest? w s x) ∧
    ∀ d e : Dependencies, (d.changedFrom e = [] ↔ d = e) ∧ d.changedFrom e = e.changedFrom d := by
  intro recorded
  have hrecorded : recorded = dependencies v s :=
    (recordedDependencies_annotate hadded _).trans (recordedDependencies_deployment s logLevel revision _ proxy)
  refine ⟨hrecorded, pairwise_ascending _, fun k => ?_,
    fun d e => ⟨Dependencies.changedFrom_eq_nil, d.changedFrom_comm e⟩⟩
  rw [hrecorded]
  exact mem_changedFrom_dependencies

/-- A cluster in which the serving certificate has come, with a config map of the same name beside it. -/
def certifiedView : ClusterView where
  configMaps := Cache.ofObjects [{ metadata := { name := some "serving-cert", space := some "openshift-apiserver" } }]
  secrets := Cache.ofObjects [{ metadata := { name := some "serving-cert", space := some "openshift-apiserver" } }]

theorem changes_are_detected_certified :
    Foreign [("deployment.kubernetes.io/revision", "1")] ∧
    let recorded := recordedDependencies
      ((deployment {} .normal 1 (dependencies {} {}) []).annotate [("deployment.kubernetes.io/revision", "1")])
    "openshift-apiserver.serving-cert.secret" ∈ (dependencies certifiedView {}).changedFrom recorded ∧
    "openshift-apiserver.etcd-client.secret" ∉ (dependencies certifiedView {}).changedFrom recorded := by
  have hadded : Foreign [("deployment.kubernetes.io/revision", "1")] := by decide +kernel
  obtain ⟨-, -, hchanged, -⟩ := changes_are_detected {} .normal 1 [] {} certifiedView _ hadded
  refine ⟨hadded, (hchanged _).2 ⟨(.secret, "serving-cert"), by decide +kernel, by decide +kernel, ?_⟩, fun hmem => ?_⟩
  · have hbefore : digest? {} {} (.secret, "serving-cert") = none := rfl
    have hafter : (digest? certifiedView {} (.secret, "serving-cert")).isSome := by
      rw [digest?, Option.isSome_map]
      decide +kernel
    intro he
    rw [← he, hbefore] at hafter
    cases hafter
  · obtain ⟨x, hx, hkey, hne⟩ := (hchanged _).1 hmem
    obtain rfl : (.secret, "etcd-client") = x := keyOf_injective (s := {}) _ _ hkey
    exact hne (by decide +kernel)

end Rollout

end RolloutControl
