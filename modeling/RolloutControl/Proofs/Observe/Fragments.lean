import RolloutControl.Observe.Sources
import RolloutControl.Proofs.Document.Paths
/-! What each observer contributes. It either keeps what the document holds at its paths, with the same
errors whatever that is, or it says without any error what it sees, whatever the document holds. -/

namespace RolloutControl.Observer

variable {sources : Facts → List DeployedSource} {facts : Facts} {o : Observer}

/-- The paths of the observer keep their values, and these errors are reported. -/
def Keeps (o : Observer) (facts : Facts) (errors : List Error) : Prop :=
  ∀ existing, ∃ events, o.observe facts existing = .keep existing o.paths errors events

structure Sees (o : Observer) (facts : Facts) (observed : Document) : Prop where
  holdsOnly : observed.HoldsOnly o.paths
  observe : ∀ existing, ∃ events, o.observe facts existing = { config := observed, events }

theorem Keeps.config {l : List Error} (h : o.Keeps facts l) (existing : Document) :
    (o.observe facts existing).config = existing.extract o.paths := by
  obtain ⟨events, h⟩ := h existing
  rw [h]
  rfl

theorem Keeps.errors {l : List Error} (h : o.Keeps facts l) (existing : Document) :
    (o.observe facts existing).errors = l := by
  obtain ⟨events, h⟩ := h existing
  rw [h]
  rfl

theorem Sees.config {observed : Document} (h : o.Sees facts observed) (existing : Document) :
    (o.observe facts existing).config = observed := by
  obtain ⟨events, h⟩ := h.observe existing
  rw [h]

theorem Sees.errors {observed : Document} (h : o.Sees facts observed) (existing : Document) :
    (o.observe facts existing).errors = [] := by
  obtain ⟨events, h⟩ := h.observe existing
  rw [h]

/-- What an observer looks at is not there: its config map, or an agreement of the sources. -/
inductive Blind (sources : Facts → List DeployedSource) (facts : Facts) : Observer → Prop
  | etcd (h : facts.view.configMap? facts.settings.objects.etcdSpace
      facts.settings.objects.etcdEndpoints = none) : Blind sources facts etcd
  | images (h : facts.view.configMap? facts.settings.configSpace
      facts.settings.objects.imageConfig = none) : Blind sources facts images
  | ingress (h : facts.view.configMap? facts.settings.configSpace
      facts.settings.objects.ingressConfig = none) : Blind sources facts ingress
  | project (h : facts.view.configMap? facts.settings.configSpace
      facts.settings.objects.projectConfig = none) : Blind sources facts project
  | encryption (h : ∀ config, DeployedSource.evaluate (sources facts) ≠ .ok (.settled config)) :
    Blind sources facts (encryption sources)

/-- How an observation goes. -/
inductive Outcome (sources : Facts → List DeployedSource) (facts : Facts) (o : Observer) : Prop
  | blind (errors : List Error) (hkeeps : o.Keeps facts errors) (h : Blind sources facts o)
  | failed (e : Error) (errors : List Error) (h : o.Keeps facts (e :: errors))
  | seen (observed : Document) (h : o.Sees facts observed)

theorem keeps_of_blind (h : Blind sources facts o) : ∃ errors, o.Keeps facts errors := by
  cases h with
  | etcd h => exact ⟨[], fun existing => ⟨[], by simp only [etcd, h]⟩⟩
  | images h => exact ⟨[], fun existing => ⟨[], by simp only [images, h]⟩⟩
  | ingress h => exact ⟨[], fun existing => ⟨[], by simp only [ingress, h]⟩⟩
  | project h => exact ⟨[], fun existing => ⟨[], by simp only [project, h]⟩⟩
  | encryption h =>
    cases hx : DeployedSource.evaluate (sources facts) with
    | error e => exact ⟨[e], fun existing => ⟨[], by simp only [encryption, hx]⟩⟩
    | ok verdict =>
      cases verdict with
      | unsettled => exact ⟨[], fun existing => ⟨[], by simp only [encryption, hx]⟩⟩
      | settled config => exact absurd hx (h config)

theorem blind_encryption_iff : Blind sources facts (encryption sources) ↔
    ∀ config, DeployedSource.evaluate (sources facts) ≠ .ok (.settled config) := by
  refine ⟨fun h => ?_, .encryption⟩
  generalize ho : encryption sources = o at h
  have hname : "encryption" = o.name := congrArg Observer.name ho
  cases h with
  | encryption h => exact h
  | etcd | images | ingress | project => exact absurd hname (by decide)

theorem Outcome.of_blind (h : Blind sources facts o) : Outcome sources facts o := by
  obtain ⟨errors, hkeeps⟩ := keeps_of_blind h
  exact .blind errors hkeeps h

theorem etcd_outcome (sources : Facts → List DeployedSource) (facts : Facts) :
    Outcome sources facts etcd := by
  cases hcm : facts.view.configMap? facts.settings.objects.etcdSpace
      facts.settings.objects.etcdEndpoints with
  | none => exact .of_blind (.etcd hcm)
  | some cm =>
    cases hbad : badAddresses facts.settings.objects.etcdEndpoints (members cm) with
    | cons e r => exact .failed e r fun existing => ⟨[], by simp only [etcd, hcm, hbad]; rfl⟩
    | nil =>
      cases hgood : goodAddresses facts.settings.objects.etcdEndpoints (members cm) with
      | nil => exact .failed _ [] fun existing => ⟨_, by simp only [etcd, hcm, hbad, hgood]; rfl⟩
      | cons a l =>
        let observed := Document.setStrings ∅ storageUrls (ascending ((a :: l).map etcdUrl))
        have holds : observed.HoldsOnly etcd.paths :=
          (Document.holdsOnly_empty _).set (List.mem_singleton_self storageUrls) _
        exact .seen observed ⟨holds, fun existing => ⟨_, by simp only [etcd, hcm, hbad, hgood]; rfl⟩⟩

theorem images_outcome (sources : Facts → List DeployedSource) (facts : Facts) :
    Outcome sources facts images := by
  cases hcm : facts.view.configMap? facts.settings.configSpace facts.settings.objects.imageConfig with
  | none => exact .of_blind (.images hcm)
  | some cm =>
    have hnone : (∅ : Document).HoldsOnly images.paths := Document.holdsOnly_empty _
    have hinternal (v : String) : (Document.set ∅ internalRegistry (.str v)).HoldsOnly images.paths :=
      hnone.set (by simp [images]) _
    cases hl : ((cm.value? "externalRegistryHostnames").map hostnames).getD [] with
    | nil =>
      cases hv : cm.value? "internalRegistryHostname" with
      | none => exact .seen ∅ ⟨hnone, fun existing => ⟨_, by simp only [images, hcm, hl, hv]; rfl⟩⟩
      | some v => exact .seen _ ⟨hinternal v, fun existing => ⟨_, by simp only [images, hcm, hl, hv]; rfl⟩⟩
    | cons x l =>
      have hexternal {d : Document} (h : d.HoldsOnly images.paths) :
          (d.setStrings externalRegistries (x :: l)).HoldsOnly images.paths := h.set (by simp [images]) _
      cases hv : cm.value? "internalRegistryHostname" with
      | none =>
        exact .seen _ ⟨hexternal hnone, fun existing => ⟨_, by simp only [images, hcm, hl, hv]; rfl⟩⟩
      | some v =>
        exact .seen _ ⟨hexternal (hinternal v), fun existing => ⟨_, by simp only [images, hcm, hl, hv]; rfl⟩⟩

theorem ingress_outcome (sources : Facts → List DeployedSource) (facts : Facts) :
    Outcome sources facts ingress := by
  cases hcm : facts.view.configMap? facts.settings.configSpace facts.settings.objects.ingressConfig with
  | none => exact .of_blind (.ingress hcm)
  | some cm =>
    cases hdomain : cm.value? "domain" with
    | none => exact .failed _ [] fun existing => ⟨_, by simp only [ingress, hcm, hdomain]; rfl⟩
    | some domain =>
      let observed := Document.set ∅ subdomain (.str domain)
      have holds : observed.HoldsOnly ingress.paths :=
        (Document.holdsOnly_empty _).set (List.mem_singleton_self subdomain) _
      exact .seen observed ⟨holds, fun existing => ⟨_, by simp only [ingress, hcm, hdomain]; rfl⟩⟩

theorem project_outcome (sources : Facts → List DeployedSource) (facts : Facts) :
    Outcome sources facts project := by
  cases hcm : facts.view.configMap? facts.settings.configSpace facts.settings.objects.projectConfig with
  | none => exact .of_blind (.project hcm)
  | some cm =>
    have hnone : (∅ : Document).HoldsOnly project.paths := Document.holdsOnly_empty _
    have hmessage (v : String) : (Document.set ∅ requestMessage (.str v)).HoldsOnly project.paths :=
      hnone.set (by simp [project]) _
    have htemplate {d : Document} (h : d.HoldsOnly project.paths) (v : String) :
        (d.set requestTemplate (.str v)).HoldsOnly project.paths := h.set (by simp [project]) _
    cases hv : cm.value? "projectRequestMessage" with
    | none =>
      cases hn : cm.value? "projectRequestTemplate" with
      | none => exact .seen ∅ ⟨hnone, fun existing => ⟨_, by simp only [project, hcm, hv, hn]; rfl⟩⟩
      | some n =>
        exact .seen _ ⟨htemplate hnone _, fun existing => ⟨_, by simp only [project, hcm, hv, hn]; rfl⟩⟩
    | some v =>
      cases hn : cm.value? "projectRequestTemplate" with
      | none => exact .seen _ ⟨hmessage v, fun existing => ⟨_, by simp only [project, hcm, hv, hn]; rfl⟩⟩
      | some n =>
        exact .seen _ ⟨htemplate (hmessage v) _, fun existing => ⟨_, by simp only [project, hcm, hv, hn]; rfl⟩⟩

theorem encryption_outcome (sources : Facts → List DeployedSource) (facts : Facts) :
    Outcome sources facts (encryption sources) := by
  cases hx : DeployedSource.evaluate (sources facts) with
  | error e => exact .of_blind (.encryption fun config h => by simp [hx] at h)
  | ok verdict =>
    cases verdict with
    | unsettled => exact .of_blind (.encryption fun config h => by simp [hx] at h)
    | settled config =>
      cases config with
      | none =>
        exact .seen ∅ ⟨Document.holdsOnly_empty _,
          fun existing => ⟨_, by simp only [encryption, hx]; rfl⟩⟩
      | some config =>
        let observed := Document.setStrings ∅ providerConfig [facts.settings.encryption.providerConfigPath]
        have holds : observed.HoldsOnly (encryption sources).paths :=
          (Document.holdsOnly_empty _).set (List.mem_singleton_self providerConfig) _
        exact .seen observed ⟨holds, fun existing => ⟨_, by simp only [encryption, hx]; rfl⟩⟩

theorem builtIn_outcome (h : o ∈ builtInOver sources) (facts : Facts) : Outcome sources facts o := by
  simp only [builtInOver, List.mem_cons, List.not_mem_nil, or_false] at h
  obtain rfl | rfl | rfl | rfl | rfl := h
  · exact etcd_outcome sources facts
  · exact images_outcome sources facts
  · exact ingress_outcome sources facts
  · exact project_outcome sources facts
  · exact encryption_outcome sources facts

namespace Outcome

theorem holdsOnly (h : Outcome sources facts o) (existing : Document) :
    (o.observe facts existing).config.HoldsOnly o.paths := by
  cases h with
  | blind errors h => exact h.config existing ▸ Document.holdsOnly_extract existing o.paths
  | failed e errors h => exact h.config existing ▸ Document.holdsOnly_extract existing o.paths
  | seen observed h => exact h.config existing ▸ h.holdsOnly

theorem errors_eq (h : Outcome sources facts o) (existing existing' : Document) :
    (o.observe facts existing).errors = (o.observe facts existing').errors := by
  cases h with
  | blind errors h => rw [h.errors, h.errors]
  | failed e errors h => rw [h.errors, h.errors]
  | seen observed h => rw [h.errors, h.errors]

/-- An observer with an error, or without its source, keeps the values at its paths. -/
theorem config_eq_extract (h : Outcome sources facts o) {existing : Document}
    (hx : (o.observe facts existing).errors ≠ [] ∨ Blind sources facts o) :
    (o.observe facts existing).config = existing.extract o.paths := by
  cases h with
  | blind errors h => exact h.config existing
  | failed e errors h => exact h.config existing
  | seen observed h =>
    rcases hx with herrors | hblind
    · exact absurd (h.errors existing) herrors
    · obtain ⟨errors, hkept⟩ := keeps_of_blind hblind
      exact hkept.config existing

/-- What any other observer contributes does not come from the document. -/
theorem config_eq (h : Outcome sources facts o) {existing : Document}
    (hx : ¬((o.observe facts existing).errors ≠ [] ∨ Blind sources facts o)) (existing' : Document) :
    (o.observe facts existing).config = (o.observe facts existing').config := by
  obtain ⟨herrors, hblind⟩ := not_or.1 hx
  cases h with
  | blind errors _ h => exact absurd h hblind
  | failed e errors h =>
    rw [h.errors] at herrors
    exact absurd (List.cons_ne_nil e errors) herrors
  | seen observed h => rw [h.config, h.config]

end Outcome

end RolloutControl.Observer
