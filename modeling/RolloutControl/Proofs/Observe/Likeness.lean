import RolloutControl.Proofs.Observe.Stability
/-! Clusters that look alike. All that the observers make of a cluster is in four config maps and in whether
the sources agree on an encryption configuration, so a document that is stable in one of two clusters that look
alike is stable in the other one. -/

namespace RolloutControl.Observer

def watched (s : Settings) (v : ClusterView) : List (Option ConfigMap) :=
  [v.configMap? s.objects.etcdSpace s.objects.etcdEndpoints, v.configMap? s.configSpace s.objects.imageConfig,
   v.configMap? s.configSpace s.objects.ingressConfig, v.configMap? s.configSpace s.objects.projectConfig]

/-- All sources agree on an encryption configuration. -/
def Encrypts (sources : Facts → List DeployedSource) (facts : Facts) : Prop :=
  ∃ x, DeployedSource.evaluate (sources facts) = .ok (.settled (some x))

variable {sources : Facts → List DeployedSource} {facts : Facts} {d : Document} {order : List Nat}

theorem config_of_encrypts (h : Encrypts sources facts) (existing : Document) :
    ((encryption sources).observe facts existing).config =
      Document.setStrings ∅ providerConfig [facts.settings.encryption.providerConfigPath] := by
  obtain ⟨x, hx⟩ := h
  simp only [encryption, hx]

/-- What is not set stays so as long as the sources do not agree on a configuration. -/
theorem config_of_not_encrypts (h : ¬Encrypts sources facts) {existing : Document}
    (hunset : existing.get? providerConfig = none) :
    ((encryption sources).observe facts existing).config = ∅ := by
  have hkept : existing.extract [providerConfig] = ∅ := by simp [Document.extract, hunset]
  cases hx : DeployedSource.evaluate (sources facts) with
  | error e => simp only [encryption, hx, Observation.keep, hkept]
  | ok verdict =>
    cases verdict with
    | unsettled => simp only [encryption, hx, Observation.keep, hkept]
    | settled config =>
      cases config with
      | none => simp only [encryption, hx]
      | some x => exact absurd ⟨x, hx⟩ h

theorem encryption_mem_builtIn (sources : Facts → List DeployedSource) :
    encryption sources ∈ builtInOver sources := by simp [builtInOver]

theorem Stable.isSome_of_seen (h : Stable sources facts d) {o : Observer} (ho : o ∈ builtInOver sources) {p : Path}
    (hp : p ∈ o.paths) (hseen : ((o.observe facts d).config.get? p).isSome) : (d.get? p).isSome := by
  have horder : (List.range 5).Perm (List.range 5) := .refl _
  have hvalue := Document.get?_of_same (h (List.range 5) horder) p
  rw [get?_observeIn_builtIn horder ho hp] at hvalue
  rw [← Option.isSome_map (f := Json.unsignedZeros), ← hvalue, Option.isSome_map]
  exact hseen

theorem Stable.isSome_of_encrypts (h : Stable sources facts d) (hencrypts : Encrypts sources facts) :
    (d.get? providerConfig).isSome := by
  apply h.isSome_of_seen (encryption_mem_builtIn sources) (List.mem_singleton_self _)
  have hset : (Document.setStrings ∅ providerConfig [facts.settings.encryption.providerConfigPath]).get?
      providerConfig = some _ := Document.get?_set_self ∅ (List.cons_ne_nil _ _) _
  rw [config_of_encrypts hencrypts, hset]
  rfl

theorem get?_observeIn_of_not_encrypts (horder : order.Perm (List.range 5)) (h : ¬Encrypts sources facts)
    (hunset : d.get? providerConfig = none) :
    (observeIn (builtInOver sources) order facts d).config.get? providerConfig = none := by
  rw [get?_observeIn_builtIn horder (encryption_mem_builtIn sources) (List.mem_singleton_self _),
    config_of_not_encrypts h hunset, Document.get?_empty]

section Alike
variable {s : Settings} {v v' : ClusterView} (hwatched : watched s v' = watched s v)

include hwatched

theorem observe_congr {o : Observer} (ho : o ∈ [etcd, images, ingress, project]) (existing : Document) :
    o.observe ⟨v', s⟩ existing = o.observe ⟨v, s⟩ existing := by
  simp only [watched, List.cons.injEq, and_true] at hwatched
  obtain ⟨hetcd, himages, hingress, hproject⟩ := hwatched
  simp only [List.mem_cons, List.not_mem_nil, or_false] at ho
  obtain rfl | rfl | rfl | rfl := ho
  · simp only [etcd, hetcd]
  · simp only [images, himages]
  · simp only [ingress, hingress]
  · simp only [project, hproject]

/-- A stable document is stable in every cluster that looks like this one. -/
theorem Stable.congr (h : Stable sources ⟨v, s⟩ d)
    (hencrypts : Encrypts sources ⟨v', s⟩ ↔ Encrypts sources ⟨v, s⟩)
    (hunset : ¬Encrypts sources ⟨v, s⟩ → d.get? providerConfig = none) : Stable sources ⟨v', s⟩ d := by
  have hencryption : ((encryption sources).observe ⟨v', s⟩ d).config =
      ((encryption sources).observe ⟨v, s⟩ d).config := by
    by_cases hagree : Encrypts sources ⟨v, s⟩
    · rw [config_of_encrypts hagree, config_of_encrypts (hencrypts.2 hagree)]
    · rw [config_of_not_encrypts hagree (hunset hagree),
        config_of_not_encrypts (mt hencrypts.1 hagree) (hunset hagree)]
  have hsame : ∀ o ∈ builtInOver sources, (o.observe ⟨v', s⟩ d).config = (o.observe ⟨v, s⟩ d).config := by
    intro o ho
    rcases List.mem_append.1 (show o ∈ [etcd, images, ingress, project] ++ [encryption sources] from ho) with
      ho | ho
    · rw [observe_congr hwatched ho]
    · obtain rfl := List.mem_singleton.1 ho
      exact hencryption
  intro order horder
  have hseen := h order horder
  rw [config_observeIn] at hseen ⊢
  rwa [merged_congr fun o ho => hsame o (mem_of_mem_asked ho)]

end Alike

end RolloutControl.Observer
