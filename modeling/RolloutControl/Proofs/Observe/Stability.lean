import RolloutControl.Proofs.Observe.Fallback
/-! Looking twice. What the observers have seen is what they see again, whether a value was computed or
carried over from the document, so a document that they have stored is one that they leave alone. -/

namespace RolloutControl

/-- A value that is the same but for the signs of zeros is no change. -/
theorem changeEvents_eq_nil {reason : String} {existing observed : Document} {p : Path}
    (h : (observed.get? p).map Json.unsignedZeros = (existing.get? p).map Json.unsignedZeros) :
    changeEvents reason existing observed p = [] := by
  unfold changeEvents
  cases hx : (existing.get? p).filter fun j => !j.isBlank with
  | none => rfl
  | some previous =>
    have hprevious : existing.get? p = some previous := (Option.filter_eq_some_iff.1 hx).1
    rw [hprevious, Option.map_some] at h
    obtain ⟨current, hcurrent, hsame⟩ := Option.map_eq_some_iff.1 h
    have hany : (observed.get? p).any previous.same = true := by
      simp [hcurrent, Json.same, hsame]
    simp [hany]

namespace Observer

variable {sources : Facts → List DeployedSource} {facts : Facts} {o : Observer}

/-- A warning that does not pass for a note on a document that was written. -/
def Warns (e : Event) : Prop := e.kind = .warning ∧ e.reason ≠ "ObservedConfigChanged"

theorem warns_warning {reason : String} (note : String) (h : reason ≠ "ObservedConfigChanged") :
    Warns (.warning reason note) := ⟨rfl, h⟩

/-- Besides warnings, an observer tells of changes at its own paths only. -/
def TellsOwn (o : Observer) (facts : Facts) : Prop :=
  ∀ existing, ∀ e ∈ (o.observe facts existing).events, Warns e ∨
    ∃ reason, ∃ p ∈ o.paths, e ∈ changeEvents reason existing (o.observe facts existing).config p

theorem etcd_tellsOwn (facts : Facts) : etcd.TellsOwn facts := by
  intro existing e he
  simp only [etcd] at he ⊢
  cases hcm : facts.view.configMap? facts.settings.objects.etcdSpace
      facts.settings.objects.etcdEndpoints with
  | none => simp [hcm, Observation.keep] at he
  | some cm =>
    simp only [hcm] at he ⊢
    cases hbad : badAddresses facts.settings.objects.etcdEndpoints (members cm) with
    | cons x r => simp [hbad, Observation.keep] at he
    | nil =>
      cases hgood : goodAddresses facts.settings.objects.etcdEndpoints (members cm) with
      | nil =>
        simp only [hbad, hgood] at he
        obtain rfl := List.mem_singleton.1 he
        exact .inl (warns_warning _ (by decide))
      | cons a l =>
        simp only [hbad, hgood] at he ⊢
        exact .inr ⟨_, storageUrls, List.mem_singleton_self _, he⟩

theorem images_tellsOwn (facts : Facts) : images.TellsOwn facts := by
  intro existing e he
  simp only [images] at he ⊢
  cases hcm : facts.view.configMap? facts.settings.configSpace facts.settings.objects.imageConfig with
  | none => simp [hcm, Observation.keep] at he
  | some cm =>
    simp only [hcm] at he ⊢
    rcases List.mem_append.1 he with he | he
    · exact .inr ⟨_, internalRegistry, by simp, he⟩
    · exact .inr ⟨_, externalRegistries, by simp, he⟩

theorem ingress_tellsOwn (facts : Facts) : ingress.TellsOwn facts := by
  intro existing e he
  simp only [ingress] at he ⊢
  cases hcm : facts.view.configMap? facts.settings.configSpace facts.settings.objects.ingressConfig with
  | none => simp [hcm, Observation.keep] at he
  | some cm =>
    simp only [hcm] at he ⊢
    cases hdomain : cm.value? "domain" with
    | none =>
      simp only [hdomain] at he
      obtain rfl := List.mem_singleton.1 he
      exact .inl (warns_warning _ (by decide))
    | some domain =>
      simp only [hdomain] at he ⊢
      exact .inr ⟨_, subdomain, List.mem_singleton_self _, he⟩

theorem project_tellsOwn (facts : Facts) : project.TellsOwn facts := by
  intro existing e he
  simp only [project] at he ⊢
  cases hcm : facts.view.configMap? facts.settings.configSpace facts.settings.objects.projectConfig with
  | none => simp [hcm, Observation.keep] at he
  | some cm =>
    simp only [hcm] at he ⊢
    rcases List.mem_append.1 he with he | he
    · exact .inr ⟨_, requestMessage, by simp, he⟩
    · exact .inr ⟨_, requestTemplate, by simp, he⟩

theorem encryption_tellsOwn (sources : Facts → List DeployedSource) (facts : Facts) :
    (encryption sources).TellsOwn facts := by
  intro existing e he
  simp only [encryption] at he ⊢
  cases hx : DeployedSource.evaluate (sources facts) with
  | error x => simp [hx, Observation.keep] at he
  | ok verdict =>
    cases verdict with
    | unsettled => simp [hx, Observation.keep] at he
    | settled config =>
      cases config with
      | none =>
        simp only [hx] at he ⊢
        exact .inr ⟨_, providerConfig, List.mem_singleton_self _, he⟩
      | some config =>
        simp only [hx] at he ⊢
        exact .inr ⟨_, providerConfig, List.mem_singleton_self _, he⟩

theorem builtIn_tellsOwn (h : o ∈ builtInOver sources) (facts : Facts) : o.TellsOwn facts := by
  simp only [builtInOver, List.mem_cons, List.not_mem_nil, or_false] at h
  obtain rfl | rfl | rfl | rfl | rfl := h
  · exact etcd_tellsOwn facts
  · exact images_tellsOwn facts
  · exact ingress_tellsOwn facts
  · exact project_tellsOwn facts
  · exact encryption_tellsOwn sources facts

variable {order order' : List Nat} {existing : Document}

theorem Outcome.config_congr (h : Outcome sources facts o) {d e : Document}
    (hp : ∀ p ∈ o.paths, d.get? p = e.get? p) :
    (o.observe facts d).config = (o.observe facts e).config := by
  cases h with
  | blind errors h => rw [h.config, h.config, Document.extract_congr hp]
  | failed x errors h => rw [h.config, h.config, Document.extract_congr hp]
  | seen observed h => rw [h.config, h.config]

/-- What an observer makes of its own values is what it has made of the document before. -/
theorem Outcome.get?_config (h : Outcome sources facts o) (howns : o.paths.Pairwise Path.Apart)
    (existing : Document) :
    (∀ p ∈ o.paths, (o.observe facts existing).config.get? p = existing.get? p) ∨
      ∀ d, (o.observe facts d).config = (o.observe facts existing).config := by
  cases h with
  | blind errors h =>
    refine .inl fun p hp => ?_
    rw [h.config, Document.get?_extract howns hp]
  | failed e errors h =>
    refine .inl fun p hp => ?_
    rw [h.config, Document.get?_extract howns hp]
  | seen observed h => exact .inr fun d => by rw [h.config, h.config]

theorem merged_congr {l : List Observer} {facts' : Facts} {d e : Document}
    (h : ∀ o ∈ l, (o.observe facts d).config = (o.observe facts' e).config) :
    merged l facts d = merged l facts' e :=
  List.foldl_ext _ _ _ fun out o ho => by rw [h o ho]

theorem config_observeIn_perm (sources : Facts → List DeployedSource) (facts : Facts) (existing : Document)
    (h : order.Perm order') :
    (observeIn (builtInOver sources) order facts existing).config =
      (observeIn (builtInOver sources) order' facts existing).config := by
  rw [config_observeIn, config_observeIn]
  exact merged_asked_perm (fun _ => confined_of_mem_builtIn) (pairwise_builtInOver sources) h

/-- The document that has been seen is seen again, in whatever order. -/
theorem config_observeIn_again (sources : Facts → List DeployedSource) (facts : Facts) (existing : Document)
    (horder : order.Perm (List.range 5)) (horder' : order'.Perm (List.range 5)) :
    (observeIn (builtInOver sources) order' facts
        (observeIn (builtInOver sources) order facts existing).config).config =
      (observeIn (builtInOver sources) order facts existing).config := by
  generalize hd : (observeIn (builtInOver sources) order facts existing).config = d
  have hsame : ∀ o ∈ asked (builtInOver sources) order',
      (o.observe facts d).config = (o.observe facts existing).config := by
    intro o ho
    have hmem : o ∈ builtInOver sources := mem_of_mem_asked ho
    have houtcome := builtIn_outcome hmem facts
    rcases houtcome.get?_config (pairwise_paths_of_mem_builtIn hmem) existing with hkept | hseen
    · apply houtcome.config_congr
      intro p hp
      rw [← hd, get?_observeIn_builtIn horder hmem hp, hkept p hp]
    · exact hseen d
  calc (observeIn (builtInOver sources) order' facts d).config
      = merged (asked (builtInOver sources) order') facts d := config_observeIn _ _ _ _
    _ = merged (asked (builtInOver sources) order') facts existing := merged_congr hsame
    _ = (observeIn (builtInOver sources) order' facts existing).config := (config_observeIn _ _ _ _).symm
    _ = d := by rw [← hd]; exact config_observeIn_perm sources facts existing (horder'.trans horder.symm)

theorem events_observeIn (observers : List Observer) (order : List Nat) (facts : Facts)
    (existing : Document) :
    (observeIn observers order facts existing).events =
      (asked observers order).flatMap fun o => (o.observe facts existing).events :=
  congrArg Observation.events (foldl_join (asked observers order) facts existing {})

/-- The observers see the document that is there, in whatever order. -/
def Stable (sources : Facts → List DeployedSource) (facts : Facts) (d : Document) : Prop :=
  ∀ order : List Nat, order.Perm (List.range 5) →
    (observeIn (builtInOver sources) order facts d).config.same d = true

theorem stable_observeIn (sources : Facts → List DeployedSource) (facts : Facts) (existing : Document)
    (horder : order.Perm (List.range 5)) :
    Stable sources facts (observeIn (builtInOver sources) order facts existing).config := by
  intro order' horder'
  rw [config_observeIn_again sources facts existing horder horder']
  exact Json.same_self _

theorem stable_of_same (horder : order.Perm (List.range 5))
    (h : (observeIn (builtInOver sources) order facts existing).config.same existing = true) :
    Stable sources facts existing := by
  intro order' horder'
  rw [config_observeIn_perm sources facts existing (horder'.trans horder.symm)]
  exact h

theorem Stable.warns (h : Stable sources facts existing) (horder : order.Perm (List.range 5)) :
    ∀ e ∈ (observeIn (builtInOver sources) order facts existing).events, Warns e := by
  intro e he
  rw [events_observeIn] at he
  obtain ⟨o, ho, he⟩ := List.mem_flatMap.1 he
  have hmem : o ∈ builtInOver sources := mem_of_mem_asked ho
  rcases builtIn_tellsOwn hmem facts existing e he with hwarns | ⟨reason, p, hp, hchange⟩
  · exact hwarns
  · have hvalue := Document.get?_of_same (h order horder) p
    rw [get?_observeIn_builtIn horder hmem hp] at hvalue
    rw [changeEvents_eq_nil hvalue] at hchange
    simp at hchange

end Observer

end RolloutControl
