import RolloutControl.Proofs.Observe.Order
/-! What an observer falls back to. At the paths of an observer the merged document holds what this observer
contributes, whatever the other ones do, so nothing is lost that is known already when an observer fails or
cannot see. -/

namespace RolloutControl.Observer

variable {l : List Observer} {facts : Facts} {existing : Document}

theorem get?_foldl_merge_of_apart (hconfined : ∀ o ∈ l, o.Confined) {p : Path}
    (h : ∀ o ∈ l, ∀ q ∈ o.paths, q.Apart p) (d : Document) :
    (l.foldl (fun d o => d.merge (o.observe facts existing).config) d).get? p = d.get? p := by
  induction l generalizing d with
  | nil => rfl
  | cons o r ih =>
    obtain ⟨ho, hr⟩ := List.forall_mem_cons.1 h
    obtain ⟨hoconfined, hrconfined⟩ := List.forall_mem_cons.1 hconfined
    rw [List.foldl_cons, ih hrconfined hr, d.get?_merge_of_apart (hoconfined facts existing) ho]

theorem get?_foldl_merge (hconfined : ∀ o ∈ l, o.Confined) (happart : l.Pairwise Apart) {o : Observer}
    (ho : o ∈ l) {p : Path} (hp : p ∈ o.paths) {d : Document} (hd : d.get? p = none) :
    (l.foldl (fun d o => d.merge (o.observe facts existing).config) d).get? p =
      (o.observe facts existing).config.get? p := by
  induction l generalizing d with
  | nil => simp at ho
  | cons a r ih =>
    obtain ⟨haconfined, hrconfined⟩ := List.forall_mem_cons.1 hconfined
    obtain ⟨ha, hr⟩ := List.pairwise_cons.1 happart
    rw [List.foldl_cons]
    rcases List.mem_cons.1 ho with rfl | hor
    · have hlater : ∀ b ∈ r, ∀ q ∈ b.paths, q.Apart p := fun b hb q hq => (ha b hb).symm q hq p hp
      rw [get?_foldl_merge_of_apart hrconfined hlater, Document.get?_merge_of_none _ hd]
    · have hearlier : ∀ q ∈ a.paths, q.Apart p := fun q hq => ha o hor q hq p hp
      exact ih hrconfined hr hor ((d.get?_merge_of_apart (haconfined facts existing) hearlier).trans hd)

theorem get?_merged (hconfined : ∀ o ∈ l, o.Confined) (happart : l.Pairwise Apart) {o : Observer}
    (ho : o ∈ l) {p : Path} (hp : p ∈ o.paths) :
    (merged l facts existing).get? p = (o.observe facts existing).config.get? p :=
  get?_foldl_merge hconfined happart ho hp (Document.get?_empty p)

theorem exists_of_get?_foldl_merge {d : Document} {p : Path} {j : Json}
    (h : (l.foldl (fun d o => d.merge (o.observe facts existing).config) d).get? p = some j) :
    ∃ x, (d.get? p = some x ∨ ∃ o ∈ l, (o.observe facts existing).config.get? p = some x) ∧
      (j.isObj = x.isObj) := by
  induction l generalizing d with
  | nil => exact ⟨j, .inl h, rfl⟩
  | cons o r ih =>
    obtain ⟨x, hx | ⟨a, ha, hx⟩, hobj⟩ := ih h
    · rcases Document.get?_merge_eq_some hx with ⟨y, hy, rfl⟩ | hd
      · exact ⟨y, .inr ⟨o, List.mem_cons_self, hy⟩, hobj.trans (Fields.isObj_mergeValue _ y)⟩
      · exact ⟨x, .inl hd, hobj⟩
    · exact ⟨x, .inr ⟨a, List.mem_cons_of_mem o ha, hx⟩, hobj⟩

theorem holdsOnly_merged (facts : Facts) (existing : Document) (happart : l.Pairwise Apart)
    (h : ∀ o ∈ l, ∀ facts existing, (o.observe facts existing).config.HoldsOnly o.paths) :
    (merged l facts existing).HoldsOnly (l.flatMap Observer.paths) := by
  have hconfined : ∀ o ∈ l, o.Confined := fun o ho facts existing => (h o ho facts existing).confinedTo
  intro p j hp
  obtain ⟨x, hx | ⟨o, ho, hx⟩, hobj⟩ := exists_of_get?_foldl_merge hp
  · simp at hx
  rcases h o ho facts existing p x hx with ⟨q, hq, hqp⟩ | ⟨hxobj, q, hq, hpq, hsome⟩
  · exact .inl ⟨q, List.mem_flatMap.2 ⟨o, ho, hq⟩, hqp⟩
  · refine .inr ⟨hobj.trans hxobj, q, List.mem_flatMap.2 ⟨o, ho, hq⟩, hpq, ?_⟩
    rw [get?_merged hconfined happart ho hq]
    exact hsome

variable {sources : Facts → List DeployedSource} {o : Observer} {order : List Nat}

theorem pairwise_paths_of_mem_builtIn (h : o ∈ builtInOver sources) : o.paths.Pairwise Path.Apart := by
  simp only [builtInOver, List.mem_cons, List.not_mem_nil, or_false] at h
  obtain rfl | rfl | rfl | rfl | rfl := h
  · exact List.pairwise_singleton _ _
  · exact (by decide : [internalRegistry, externalRegistries].Pairwise Path.Apart)
  · exact List.pairwise_singleton _ _
  · exact (by decide : [requestMessage, requestTemplate].Pairwise Path.Apart)
  · exact List.pairwise_singleton _ _

theorem pairwise_builtInOver (sources : Facts → List DeployedSource) :
    (builtInOver sources).Pairwise Apart :=
  overlap?_eq_none.1 (overlap?_builtInOver sources)

/-- The merged document of all observers of the operator, asked in any order. -/
theorem get?_observeIn_builtIn (horder : order.Perm (List.range 5)) (ho : o ∈ builtInOver sources) {p : Path}
    (hp : p ∈ o.paths) (facts : Facts) (existing : Document) :
    (observeIn (builtInOver sources) order facts existing).config.get? p =
      (o.observe facts existing).config.get? p := by
  have hperm : (asked (builtInOver sources) order).Perm (builtInOver sources) := asked_perm horder
  have happart : (asked (builtInOver sources) order).Pairwise Apart :=
    (pairwise_builtInOver sources).perm hperm.symm Apart.symm
  rw [config_observeIn]
  exact get?_merged (fun a ha => confined_of_mem_builtIn (hperm.mem_iff.1 ha)) happart (hperm.mem_iff.2 ho) hp

theorem holdsOnly_observeIn_builtIn (horder : order.Perm (List.range 5)) (facts : Facts)
    (existing : Document) :
    (observeIn (builtInOver sources) order facts existing).config.HoldsOnly
      ((builtInOver sources).flatMap Observer.paths) := by
  have hperm : (asked (builtInOver sources) order).Perm (builtInOver sources) := asked_perm horder
  have happart : (asked (builtInOver sources) order).Pairwise Apart :=
    (pairwise_builtInOver sources).perm hperm.symm Apart.symm
  have holds := holdsOnly_merged facts existing happart fun a ha facts existing =>
    (builtIn_outcome (hperm.mem_iff.1 ha) facts).holdsOnly existing
  rw [config_observeIn]
  exact holds.mono fun q hq => (hperm.flatMap_right _).mem_iff.1 hq

/-- An observer that fails or cannot see keeps the values at its paths, any other one says what it sees
whatever was held there, and nothing is held anywhere else. -/
theorem nothing_known_is_lost (sources : Facts → List DeployedSource) (facts : Facts) (existing : Document)
    {order : List Nat} (horder : order.Perm (List.range 5)) :
    (∀ o ∈ builtInOver sources,
      (o.observe facts existing).errors ≠ [] ∨ Blind sources facts o → ∀ p ∈ o.paths,
        (observeIn (builtInOver sources) order facts existing).config.get? p = existing.get? p) ∧
    (∀ o ∈ builtInOver sources,
      ¬((o.observe facts existing).errors ≠ [] ∨ Blind sources facts o) → ∀ p ∈ o.paths, ∀ existing',
        (observeIn (builtInOver sources) order facts existing).config.get? p =
          (observeIn (builtInOver sources) order facts existing').config.get? p) ∧
    (observeIn (builtInOver sources) order facts existing).config.HoldsOnly
      ((builtInOver sources).flatMap Observer.paths) := by
  refine ⟨fun o ho hx p hp => ?_, fun o ho hx p hp existing' => ?_,
    holdsOnly_observeIn_builtIn horder facts existing⟩
  · rw [get?_observeIn_builtIn horder ho hp, (builtIn_outcome ho facts).config_eq_extract hx,
      Document.get?_extract (pairwise_paths_of_mem_builtIn ho) hp]
  · rw [get?_observeIn_builtIn horder ho hp, get?_observeIn_builtIn horder ho hp,
      (builtIn_outcome ho facts).config_eq hx existing']

/-- A document with an ingress domain, and an encryption setting that is out of date. -/
def known : Document :=
  (Document.set ∅ subdomain (.str "apps.example.com")).set providerConfig (.str "old")

theorem domain_outlives_two_faults :
    (observeIn (builtInOver fun _ => []) [2, 0, 1, 3, 4] twoFaults known).config.get? subdomain =
      known.get? subdomain ∧
    (observeIn (builtInOver fun _ => []) [2, 0, 1, 3, 4] twoFaults known).config.get? providerConfig =
      (observeIn (builtInOver fun _ => []) [2, 0, 1, 3, 4] twoFaults ∅).config.get? providerConfig := by
  have h := nothing_known_is_lost (fun _ => []) twoFaults known (by decide : [2, 0, 1, 3, 4].Perm (List.range 5))
  constructor
  · exact h.1 ingress (by simp [builtInOver]) (.inl (List.cons_ne_nil _ _)) subdomain (List.mem_singleton_self _)
  · have hsees : ¬Blind (fun _ => []) twoFaults (encryption fun _ => []) := fun hblind =>
      blind_encryption_iff.1 hblind none rfl
    exact h.2.1 (encryption fun _ => []) (by simp [builtInOver])
      (not_or.2 ⟨fun herrors => herrors rfl, hsees⟩) providerConfig (List.mem_singleton_self _) ∅

end RolloutControl.Observer
