import Mathlib.Data.List.Basic
import RolloutControl.Workload.Rollout
/-! Change detection through annotations. What a deployment carries is read back as it was written,
nothing counts as changed exactly when all digests are equal, and the digest of a secret that the
operand mounts is found under the key of that secret. A secret that comes or goes changes it. -/

namespace RolloutControl

theorem Text.hexadecimal_ne_empty (width n : Nat) : Text.hexadecimal width n ≠ "" := by
  intro h
  have hlist := congrArg String.toList h
  simp [Text.hexadecimal] at hlist

/-- Only what does not exist has no digest. -/
theorem Sha256.hex_ne_empty (message : List UInt8) : Sha256.hex message ≠ "" := by
  simp [Sha256.hex, Sha256.State.words, String.join_cons, Text.hexadecimal_ne_empty]

theorem getLast?_dependencyKey (kind : DependencyKind) (space name : String) :
    (dependencyKey kind space name).toList.getLast? = kind.text.toList.getLast? := by
  rw [dependencyKey, String.toList_append, List.getLast?_append]
  cases kind <;> rfl

/-- The keys of different dependencies are different, whatever dots there are in the names. -/
theorem dependencyKey_inj {kind kind' : DependencyKind} {space m n : String} :
    dependencyKey kind space m = dependencyKey kind' space n ↔ kind = kind' ∧ m = n := by
  constructor
  · intro h
    have hlast : kind.text.toList.getLast? = kind'.text.toList.getLast? := by
      rw [← getLast?_dependencyKey kind space m, h, getLast?_dependencyKey]
    have hkind : kind = kind' := by
      cases kind <;> cases kind' <;> first | rfl | exact absurd hlast (by decide)
    subst hkind
    simpa [dependencyKey, String.append_left_inj, String.append_right_inj] using h
  · rintro ⟨rfl, rfl⟩
    rfl

namespace Dependencies

theorem afterMark?_eq_some {key k : String} : afterMark? key = some k ↔ key = annotationMark ++ k := by
  simp only [afterMark?, List.isPrefixOf_iff_prefix]
  constructor
  · intro h
    split at h
    · next hp =>
      obtain ⟨rest, hrest⟩ := hp
      have hk : String.ofList rest = k := by simpa [← hrest] using h
      rw [← String.toList_inj, String.toList_append, ← hk, String.toList_ofList, hrest]
    · simp at h
  · rintro rfl
    simp

theorem get?_ofAnnotations (a : Labels) (k : String) :
    (ofAnnotations a).get? k = a.get? (annotationMark ++ k) := by
  have hdistinct : (a.entries.filterMap fun e => (afterMark? e.1).map (·, e.2)).Pairwise
      fun x y => x.1 ≠ y.1 := by
    refine a.entries_pairwise_ne.filterMap _ fun e d hne x hx y hy hxy => hne ?_
    obtain ⟨i, hi, rfl⟩ := Option.map_eq_some_iff.1 hx
    obtain ⟨j, hj, rfl⟩ := Option.map_eq_some_iff.1 hy
    rw [afterMark?_eq_some.1 hi, afterMark?_eq_some.1 hj]
    exact congrArg _ hxy
  ext v
  rw [ofAnnotations, Dict.get?_ofList_eq_some hdistinct, List.mem_filterMap]
  constructor
  · rintro ⟨e, he, hv⟩
    obtain ⟨i, hi, hiv⟩ := Option.map_eq_some_iff.1 hv
    obtain ⟨rfl, rfl⟩ := Prod.mk.inj hiv
    rw [← afterMark?_eq_some.1 hi]
    exact Dict.mem_entries_iff.1 he
  · intro h
    exact ⟨(annotationMark ++ k, v), Dict.mem_entries_iff.2 h, by simp [afterMark?_eq_some.2 rfl]⟩

theorem get?_toAnnotations (d : Dependencies) (k : String) :
    (toAnnotations d).get? (annotationMark ++ k) = d.get? k := by
  have hdistinct : (d.entries.map fun e => (annotationMark ++ e.1, e.2)).Pairwise
      fun x y => x.1 ≠ y.1 :=
    List.pairwise_map.2 (d.entries_pairwise_ne.imp fun hne h => hne ((String.append_right_inj _).1 h))
  ext v
  rw [toAnnotations, Dict.get?_ofList_eq_some hdistinct, List.mem_map, ← Dict.mem_entries_iff (e := (k, v))]
  constructor
  · rintro ⟨e, he, hv⟩
    obtain ⟨hk, rfl⟩ := Prod.mk.inj hv
    rwa [← (String.append_right_inj _).1 hk]
  · exact fun h => ⟨(k, v), h, rfl⟩

@[simp] theorem ofAnnotations_toAnnotations (d : Dependencies) : ofAnnotations (toAnnotations d) = d := by
  ext1 k
  rw [get?_ofAnnotations, get?_toAnnotations]

/-- A key counts as changed if not the same is found under it. -/
theorem mem_changedFrom {d previous : Dependencies} {k : String} :
    k ∈ d.changedFrom previous ↔ d.get? k ≠ previous.get? k := by
  simp only [changedFrom, mem_ascending, List.mem_append, List.mem_map, List.mem_filter, decide_eq_true_eq,
    Dict.mem_entries_iff, Dict.mem_keys_iff, Dict.contains, Bool.not_eq_true', Option.isSome_eq_false_iff,
    Option.isNone_iff_eq_none]
  cases hd : d.get? k with
  | some v =>
    constructor
    · rintro (⟨⟨j, w⟩, ⟨hw, hne⟩, rfl⟩ | ⟨-, hnone⟩)
      · rw [hd] at hw
        rw [hw]
        exact hne.symm
      · cases hnone
    · exact fun hne => .inl ⟨(k, v), ⟨hd, hne.symm⟩, rfl⟩
  | none =>
    constructor
    · rintro (⟨⟨j, w⟩, ⟨hw, hne⟩, rfl⟩ | ⟨hsome, -⟩)
      · simp [hd] at hw
      · exact fun hnone => by simp [← hnone] at hsome
    · exact fun hne => .inr ⟨Option.ne_none_iff_isSome.1 hne.symm, rfl⟩

theorem changedFrom_eq_nil {d previous : Dependencies} : d.changedFrom previous = [] ↔ d = previous := by
  rw [List.eq_nil_iff_forall_not_mem]
  simp only [mem_changedFrom, not_not]
  exact ⟨Dict.ext, fun h k => h ▸ rfl⟩

theorem changedFrom_comm (d e : Dependencies) : d.changedFrom e = e.changedFrom d := by
  refine ascending_congr fun k => ?_
  rw [← mem_ascending, ← mem_ascending (l := _ ++ _)]
  exact mem_changedFrom.trans (ne_comm.trans mem_changedFrom.symm)

end Dependencies

namespace Rollout

/-- Where the digest of a secret of the operand is found. -/
def secretKey (s : Settings) (name : String) : String := dependencyKey .secret s.targetSpace name

def digestOf (secret : Option Secret) : String := (secret.map Secret.digest).getD ""

theorem digestOf_eq_empty_iff {secret : Option Secret} : digestOf secret = "" ↔ secret = none := by
  cases secret with
  | none => simp [digestOf]
  | some x => simp [digestOf, Secret.digest, Digest.ofEntries, Sha256.hex_ne_empty]

/-- The objects that the operand depends on, by kind and name. -/
def inputs (s : Settings) : List (DependencyKind × String) :=
  s.objects.dependencyConfigMaps.map (.configMap, ·) ++ s.objects.dependencySecrets.map (.secret, ·)

def keyOf (s : Settings) (x : DependencyKind × String) : String := dependencyKey x.1 s.targetSpace x.2

def digest? (v : ClusterView) (s : Settings) : DependencyKind × String → Option String
  | (.configMap, name) => (v.configMap? s.targetSpace name).map ConfigMap.digest
  | (.secret, name) => (v.secret? s.targetSpace name).map Secret.digest

theorem keyOf_injective {s : Settings} (x y : DependencyKind × String) (h : keyOf s x = keyOf s y) : x = y :=
  Prod.ext_iff.2 (dependencyKey_inj.1 h)

theorem dependencies_eq_foldl (v : ClusterView) (s : Settings) :
    dependencies v s = (inputs s).foldl (fun d x => d.insert (keyOf s x) ((digest? v s x).getD "")) ∅ := by
  rw [inputs, List.foldl_append, List.foldl_map, List.foldl_map]
  rfl

theorem get?_dependencies_keyOf {v : ClusterView} {s : Settings} {x : DependencyKind × String} (h : x ∈ inputs s) :
    (dependencies v s).get? (keyOf s x) = some ((digest? v s x).getD "") := by
  rw [dependencies_eq_foldl]
  exact Dict.get?_foldl_insert_of_mem keyOf_injective h ∅

theorem get?_dependencies_of_ne {v : ClusterView} {s : Settings} {k : String} (h : ∀ x ∈ inputs s, keyOf s x ≠ k) :
    (dependencies v s).get? k = none := by
  rw [dependencies_eq_foldl, Dict.get?_foldl_insert_of_ne h, Dict.get?_empty]

theorem get?_dependencies {v : ClusterView} {s : Settings} {name : String}
    (h : name ∈ s.objects.dependencySecrets) :
    (dependencies v s).get? (secretKey s name) = some (digestOf (v.secret? s.targetSpace name)) := by
  have hx : (DependencyKind.secret, name) ∈ inputs s := List.mem_append_right _ (List.mem_map_of_mem h)
  have hkept := get?_dependencies_keyOf (v := v) hx
  exact hkept

@[simp] theorem recordedDependencies_deployment (s : Settings) (logLevel : LogLevel) (revision : Int)
    (digests : Dependencies) (proxy : List (String × String)) :
    recordedDependencies (deployment s logLevel revision digests proxy) = digests := by
  simp [recordedDependencies, deployment]

@[simp] theorem podLabel?_deployment (s : Settings) (logLevel : LogLevel) (revision : Int)
    (digests : Dependencies) (proxy : List (String × String)) :
    (deployment s logLevel revision digests proxy).podLabel? s.encryption.revisionLabel =
      some (Text.integer revision) := by
  simp [deployment, Deployment.podLabel?]

end Rollout

end RolloutControl
