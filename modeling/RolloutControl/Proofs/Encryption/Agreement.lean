import RolloutControl.Proofs.Cache.History
import RolloutControl.Proofs.Cluster.Labels
import RolloutControl.Proofs.Encryption.Replicas
/-! What the replicas report, whatever the caches hold. They are settled exactly if there are any and all of them run
and are labelled with one revision, and a failure is due to the first one in the way. -/

namespace RolloutControl.DeployedSource

variable {v : ClusterView} {s : EncryptionSettings}

/-- A pod that is looked at: it has not come to its end, and is not about to. -/
structure Watched (s : EncryptionSettings) (p : Pod) : Prop where
  space : p.metadata.space = some s.space
  selected : s.podSelector.Within (p.metadata.labels.getD ∅)
  undeleted : p.metadata.deleted = none
  unfinished : p.phase ≠ some "Succeeded" ∧ p.phase ≠ some "Failed"

def revision? (s : EncryptionSettings) (p : Pod) : Option String := (p.metadata.labels.getD ∅).get? s.revisionLabel

/-- All pods that are looked at run and are labelled with this revision, and there is at least one of them. -/
structure Agreed (v : ClusterView) (s : EncryptionSettings) (revision : String) : Prop where
  nonempty : ∃ p ∈ v.pods.list, Watched s p
  running : ∀ p ∈ v.pods.list, Watched s p → p.phase = some "Running"
  labelled : ∀ p ∈ v.pods.list, Watched s p → revision? s p = some revision

/-- The first pod that is looked at and does not run with a label runs without one. -/
structure Unlabelled (v : ClusterView) (s : EncryptionSettings) (p : Pod) : Prop where
  first : ∃ before after, v.pods.list = before ++ p :: after ∧
    ∀ q ∈ before, Watched s q → q.phase = some "Running" ∧ (revision? s q).isSome
  watched : Watched s p
  running : p.phase = some "Running"
  missing : revision? s p = none

def unfinished (p : Pod) : Bool := p.phase ≠ some "Succeeded" && p.phase ≠ some "Failed"

def amiss (s : EncryptionSettings) (p : Pod) : Bool := p.phase ≠ some "Running" || (revision? s p).isNone

theorem getD_pending_eq (phase : Option String) {x : String} (hx : x ≠ "Pending") :
    phase.getD "Pending" = x ↔ phase = some x := by
  cases phase with
  | none => simp [hx.symm]
  | some y => simp

theorem runningRevisions_cons (s : EncryptionSettings) (p : Pod) (r : List Pod) :
    runningRevisions s (p :: r) =
      if unfinished p = false then runningRevisions s r
      else if p.phase ≠ some "Running" then .ok none
      else
        match revision? s p with
        | none => .error (.object (.unlabelled s.space p.metadata.anyName s.revisionLabel))
        | some revision =>
          match runningRevisions s r with
          | .ok (some l) => .ok (some (revision :: l))
          | other => other := by
  have hended : unfinished p = false ↔ p.phase = some "Succeeded" ∨ p.phase = some "Failed" := by
    simp [unfinished, or_iff_not_imp_left]
  have hsucceeded : p.phase.getD "Pending" = "Succeeded" ↔ p.phase = some "Succeeded" :=
    getD_pending_eq p.phase (by decide)
  have hfailed : p.phase.getD "Pending" = "Failed" ↔ p.phase = some "Failed" :=
    getD_pending_eq p.phase (by decide)
  have hrunning : p.phase.getD "Pending" = "Running" ↔ p.phase = some "Running" :=
    getD_pending_eq p.phase (by decide)
  rw [runningRevisions]
  refine if_congr ?_ rfl (if_congr (not_congr hrunning) rfl rfl)
  rw [Bool.or_eq_true, decide_eq_true_eq, decide_eq_true_eq, hsucceeded, hfailed, hended]

theorem runningRevisions_eq (s : EncryptionSettings) (l : List Pod) :
    runningRevisions s l =
      match (l.filter unfinished).find? (amiss s) with
      | none => .ok (some ((l.filter unfinished).filterMap (revision? s)))
      | some p =>
        if p.phase = some "Running" then
          .error (.object (.unlabelled s.space p.metadata.anyName s.revisionLabel))
        else .ok none := by
  induction l with
  | nil => rfl
  | cons p r ih =>
    rw [runningRevisions_cons]
    by_cases hended : unfinished p = false
    · rw [if_pos hended, ih, List.filter_cons_of_neg (by simp [hended])]
    · rw [if_neg hended, List.filter_cons_of_pos (by simpa using hended), List.find?_cons]
      by_cases hrunning : p.phase = some "Running"
      · cases hrevision : revision? s p with
        | none => simp [amiss, hrunning, hrevision]
        | some revision =>
          have htells : amiss s p = false := by simp [amiss, hrunning, hrevision]
          simp only [htells, hrunning, ne_eq, not_true, if_false, ih]
          cases (r.filter unfinished).find? (amiss s) with
          | none => simp [hrevision]
          | some q => by_cases hq : q.phase = some "Running" <;> simp [hq]
      · simp [amiss, hrunning]

theorem watched_iff (s : EncryptionSettings) (p : Pod) :
    Watched s p ↔ (p.metadata.space = some s.space ∧ Cache.selects s.podSelector p.metadata.labels) ∧
      p.metadata.deleted = none ∧ unfinished p := by
  rw [Cache.selects_iff_within]
  simp only [unfinished, Bool.and_eq_true, decide_eq_true_eq]
  exact ⟨fun h => ⟨⟨h.space, h.selected⟩, h.undeleted, h.unfinished⟩,
    fun ⟨⟨hspace, hselected⟩, hundeleted, hunfinished⟩ => ⟨hspace, hselected, hundeleted, hunfinished⟩⟩

instance (s : EncryptionSettings) : DecidablePred (Watched s) := fun p => decidable_of_iff _ (watched_iff s p).symm

/-- The pods that are looked at, in the order of their references. -/
def watched (v : ClusterView) (s : EncryptionSettings) : List Pod := v.pods.list.filter (Watched s ·)

@[simp] theorem mem_watched {p : Pod} : p ∈ watched v s ↔ p ∈ v.pods.list ∧ Watched s p := by
  simp [watched]

theorem filter_unfinished (v : ClusterView) (s : EncryptionSettings) :
    ((Cache.listMatching v.pods s.space s.podSelector).filter (·.metadata.deleted.isNone)).filter unfinished =
      watched v s := by
  simp only [Cache.listMatching, List.filter_filter, watched]
  refine List.filter_congr fun p _ => ?_
  rw [Bool.eq_iff_iff, decide_eq_true_eq, watched_iff]
  simp only [Bool.and_eq_true, decide_eq_true_eq, Option.isNone_iff_eq_none]
  exact ⟨fun h => ⟨h.2.2, h.2.1, h.1⟩, fun h => ⟨h.2.2, h.2.1, h.1⟩⟩

theorem report_eq (v : ClusterView) (s : EncryptionSettings) :
    (ofReplicas v s).report =
      match (watched v s).find? (amiss s) with
      | none =>
        match ascending ((watched v s).filterMap (revision? s)) with
        | [revision] => .ok (.settled (v.secret? s.space (snapshotName s revision)))
        | _ => .ok .unsettled
      | some p =>
        if p.phase = some "Running" then
          .error (.object (.unlabelled s.space p.metadata.anyName s.revisionLabel))
        else .ok .unsettled := by
  simp only [ofReplicas, runningRevisions_eq, filter_unfinished]
  cases (watched v s).find? (amiss s) with
  | none => rfl
  | some p => by_cases hp : p.phase = some "Running" <;> simp [hp]

theorem amiss_eq_false {p : Pod} :
    amiss s p = false ↔ p.phase = some "Running" ∧ (revision? s p).isSome := by
  simp [amiss, Option.isSome_iff_ne_none]

theorem agreed_iff {revision : String} :
    Agreed v s revision ↔
      (watched v s).find? (amiss s) = none ∧ ascending ((watched v s).filterMap (revision? s)) = [revision] := by
  rw [List.find?_eq_none]
  constructor
  · intro h
    have hlabelled : ∀ j ∈ (watched v s).filterMap (revision? s), j = revision := by
      intro j hj
      obtain ⟨p, hp, hjp⟩ := List.mem_filterMap.1 hj
      rw [mem_watched] at hp
      exact Option.some.inj (hjp.symm.trans (h.labelled p hp.1 hp.2))
    obtain ⟨p, hp, hwatched⟩ := h.nonempty
    have hmem : revision ∈ (watched v s).filterMap (revision? s) :=
      List.mem_filterMap.2 ⟨p, mem_watched.2 ⟨hp, hwatched⟩, h.labelled p hp hwatched⟩
    refine ⟨fun q hq => ?_, ascending_of_forall_eq (List.ne_nil_of_mem hmem) hlabelled⟩
    rw [mem_watched] at hq
    have hwell : amiss s q = false :=
      amiss_eq_false.2 ⟨h.running q hq.1 hq.2, by rw [h.labelled q hq.1 hq.2]; rfl⟩
    simp [hwell]
  · rintro ⟨hwell, hone⟩
    have hmember (j : String) : j ∈ (watched v s).filterMap (revision? s) ↔ j = revision := by
      rw [← mem_ascending, hone, List.mem_singleton]
    have htells (p : Pod) (hp : p ∈ v.pods.list) (hwatched : Watched s p) :
        p.phase = some "Running" ∧ (revision? s p).isSome :=
      amiss_eq_false.1 (Bool.eq_false_iff.2 (hwell p (mem_watched.2 ⟨hp, hwatched⟩)))
    obtain ⟨p, hp, -⟩ := List.mem_filterMap.1 ((hmember revision).2 rfl)
    refine ⟨⟨p, mem_watched.1 hp⟩, fun q hq hwatched => (htells q hq hwatched).1, fun q hq hwatched => ?_⟩
    obtain ⟨j, hj⟩ := Option.isSome_iff_exists.1 (htells q hq hwatched).2
    obtain rfl := (hmember j).1 (List.mem_filterMap.2 ⟨q, mem_watched.2 ⟨hq, hwatched⟩, hj⟩)
    exact hj

theorem unlabelled_iff {p : Pod} :
    Unlabelled v s p ↔ (watched v s).find? (amiss s) = some p ∧ p.phase = some "Running" := by
  rw [watched, List.find?_filter, List.find?_eq_some_iff_append]
  constructor
  · intro h
    obtain ⟨before, after, hlist, hbefore⟩ := h.first
    have hamiss : amiss s p = true := by simp [amiss, h.missing]
    refine ⟨⟨by simp [h.watched, hamiss], before, after, hlist, fun q hq => ?_⟩, h.running⟩
    by_cases hwatched : Watched s q
    · simp [amiss_eq_false.2 (hbefore q hq hwatched)]
    · simp [hwatched]
  · rintro ⟨⟨hp, before, after, hlist, hbefore⟩, hrunning⟩
    simp only [decide_eq_true_eq] at hp
    refine ⟨⟨before, after, hlist, fun q hq hwatched => ?_⟩, hp.1, hrunning, ?_⟩
    · have hwell := hbefore q hq
      exact amiss_eq_false.1 (by simpa [hwatched] using hwell)
    · simpa [amiss, hrunning] using hp.2

/-- The report in terms of the replicas that are looked at. -/
structure ReportsExactly (v : ClusterView) (s : EncryptionSettings) : Prop where
  /-- A secret without a namespace stands in for the one of the namespace. -/
  settled_iff : ∀ x, (ofReplicas v s).report = .ok (.settled x) ↔
    ∃ revision, Agreed v s revision ∧
      x = (Dict.get? v.secrets ⟨snapshotName s revision, some s.space⟩ <|>
        Dict.get? v.secrets ⟨snapshotName s revision, none⟩)
  error_iff : ∀ e, (ofReplicas v s).report = .error e ↔
    ∃ p, Unlabelled v s p ∧ e = .object (.unlabelled s.space p.metadata.anyName s.revisionLabel)
  unsettled_iff : (ofReplicas v s).report = .ok .unsettled ↔
    (¬∃ revision, Agreed v s revision) ∧ ¬∃ p, Unlabelled v s p

theorem report_of_agreed {revision : String} (h : Agreed v s revision) :
    (ofReplicas v s).report = .ok (.settled (v.secret? s.space (snapshotName s revision))) := by
  obtain ⟨hwell, hone⟩ := agreed_iff.1 h
  rw [report_eq, hwell]
  simp only [hone]

theorem Runs.watched {revision : String} {p : Pod} (h : Runs s revision p) : Watched s p where
  space := h.space
  selected := Cache.selects_iff_within.1 h.selected
  undeleted := h.undeleted
  unfinished := by rw [h.phase]; decide

/-- Replicas that all run one revision stand for its secret. -/
theorem report_of_runs {revision : String} (hne : v.pods.list ≠ []) (h : ∀ p ∈ v.pods.list, Runs s revision p) :
    (ofReplicas v s).report = .ok (.settled (v.secret? s.space (snapshotName s revision))) := by
  obtain ⟨p, hp⟩ := List.exists_mem_of_ne_nil _ hne
  exact report_of_agreed
    { nonempty := ⟨p, hp, (h p hp).watched⟩
      running := fun q hq _ => (h q hq).phase
      labelled := fun q hq _ => (h q hq).labelled }

theorem report_of_unlabelled {p : Pod} (h : Unlabelled v s p) :
    (ofReplicas v s).report = .error (.object (.unlabelled s.space p.metadata.anyName s.revisionLabel)) := by
  obtain ⟨hfirst, hrunning⟩ := unlabelled_iff.1 h
  rw [report_eq, hfirst]
  simp only [hrunning, if_true]

theorem report_of_neither (h : ¬∃ revision, Agreed v s revision) (h' : ¬∃ p, Unlabelled v s p) :
    (ofReplicas v s).report = .ok .unsettled := by
  rw [report_eq]
  cases hfirst : (watched v s).find? (amiss s) with
  | none =>
    dsimp only
    split
    · next revision hone => exact absurd ⟨revision, agreed_iff.2 ⟨hfirst, hone⟩⟩ h
    · rfl
  | some p =>
    have hwaiting : p.phase ≠ some "Running" := fun hrunning => h' ⟨p, unlabelled_iff.2 ⟨hfirst, hrunning⟩⟩
    simp [hwaiting]

theorem report_cases (v : ClusterView) (s : EncryptionSettings) :
    (∃ revision, Agreed v s revision ∧
      (ofReplicas v s).report = .ok (.settled (v.secret? s.space (snapshotName s revision)))) ∨
    (∃ p, Unlabelled v s p ∧
      (ofReplicas v s).report = .error (.object (.unlabelled s.space p.metadata.anyName s.revisionLabel))) ∨
    (ofReplicas v s).report = .ok .unsettled := by
  by_cases hagreed : ∃ revision, Agreed v s revision
  · obtain ⟨revision, h⟩ := hagreed
    exact .inl ⟨revision, h, report_of_agreed h⟩
  · by_cases hunlabelled : ∃ p, Unlabelled v s p
    · obtain ⟨p, h⟩ := hunlabelled
      exact .inr (.inl ⟨p, h, report_of_unlabelled h⟩)
    · exact .inr (.inr (report_of_neither hagreed hunlabelled))

theorem reportsExactly (v : ClusterView) (s : EncryptionSettings) : ReportsExactly v s where
  settled_iff x := by
    constructor
    · intro h
      rcases report_cases v s with ⟨revision, hagreed, hreport⟩ | ⟨p, -, hreport⟩ | hreport
      · cases h.symm.trans hreport
        exact ⟨revision, hagreed, rfl⟩
      · cases h.symm.trans hreport
      · cases h.symm.trans hreport
    · rintro ⟨revision, hagreed, rfl⟩
      exact report_of_agreed hagreed
  error_iff e := by
    constructor
    · intro h
      rcases report_cases v s with ⟨revision, -, hreport⟩ | ⟨p, hunlabelled, hreport⟩ | hreport
      · cases h.symm.trans hreport
      · cases h.symm.trans hreport
        exact ⟨p, hunlabelled, rfl⟩
      · cases h.symm.trans hreport
    · rintro ⟨p, hunlabelled, rfl⟩
      exact report_of_unlabelled hunlabelled
  unsettled_iff := by
    refine ⟨fun h => ⟨?_, ?_⟩, fun h => report_of_neither h.1 h.2⟩
    · rintro ⟨revision, hagreed⟩
      cases h.symm.trans (report_of_agreed hagreed)
    · rintro ⟨p, hunlabelled⟩
      cases h.symm.trans (report_of_unlabelled hunlabelled)

/-- No more is asked of the caches than what they hold of pods and of secrets. -/
theorem report_congr {v v' : ClusterView} (s : EncryptionSettings) (hpods : v.pods = v'.pods)
    (hsecrets : v.secrets = v'.secrets) : (ofReplicas v s).report = (ofReplicas v' s).report := by
  simp only [ofReplicas, ClusterView.secret?, hpods, hsecrets]

/-- The replicas are settled exactly if there are any and all of them run with one revision, they fail only because of
one that runs without a label, and are unsettled otherwise. What the caches hold of pods and secrets decides, which is
what has been seen of each of them last, and not when it was seen. -/
theorem replicas_report_exactly (s : EncryptionSettings) :
    (∀ v, ReportsExactly v s) ∧
    (∀ v v' : ClusterView, (∀ r, Dict.get? v.pods r = Dict.get? v'.pods r) →
      (∀ r, Dict.get? v.secrets r = Dict.get? v'.secrets r) → (ofReplicas v s).report = (ofReplicas v' s).report) ∧
    ∀ (v : ClusterView) (pods pods' : List (WatchEvent Pod)) (secrets secrets' : List (WatchEvent Secret)),
      (∀ r, Cache.lastWord r pods.reverse = Cache.lastWord r pods'.reverse) →
      (∀ r, Cache.lastWord r secrets.reverse = Cache.lastWord r secrets'.reverse) →
      (ofReplicas { v with pods := Cache.ofEvents pods, secrets := Cache.ofEvents secrets } s).report =
        (ofReplicas { v with pods := Cache.ofEvents pods', secrets := Cache.ofEvents secrets' } s).report := by
  refine ⟨fun v => reportsExactly v s, ?_, ?_⟩
  · intro v v' hpods hsecrets
    exact report_congr s (Dict.ext hpods) (Dict.ext hsecrets)
  · intro v pods pods' secrets secrets' hpods hsecrets
    exact report_congr s (Cache.ofEvents_congr hpods) (Cache.ofEvents_congr hsecrets)

def replica (name revision : String) : Pod where
  metadata :=
    { name := some name
      space := some "openshift-apiserver"
      labels := some (Dict.ofList [("apiserver", "true"), ("revision", revision)]) }
  phase := some "Running"

/-- The other replica is seen before the first one is moved to its revision, or they are listed in between. -/
theorem replicas_report_exactly_histories :
    let watched : List (WatchEvent Pod) :=
      [.applied (replica "a" "1"), .applied (replica "b" "2"), .applied (replica "a" "2")]
    let listed : List (WatchEvent Pod) :=
      [.applied (replica "b" "1"), .restarted [replica "a" "1", replica "b" "2"], .applied (replica "a" "2")]
    (∀ r, Cache.lastWord r watched.reverse = Cache.lastWord r listed.reverse) ∧
    (ofReplicas { pods := Cache.ofEvents watched, secrets := Cache.ofEvents [] } {}).report =
      (ofReplicas { pods := Cache.ofEvents listed, secrets := Cache.ofEvents [] } {}).report := by
  intro watched listed
  have hwords (r : ObjectRef) : Cache.lastWord r watched.reverse = Cache.lastWord r listed.reverse := by
    have hsame : objectRef (replica "a" "1") = objectRef (replica "a" "2") := rfl
    by_cases ha : r = objectRef (replica "a" "2")
    · simp [watched, listed, Cache.lastWord, ha]
    · by_cases hb : r = objectRef (replica "b" "2")
      · simp [watched, listed, Cache.lastWord, Cache.lastOf, hb]
      · simp [watched, listed, Cache.lastWord, Cache.lastOf, hsame, ha, hb, Ne.symm ha, Ne.symm hb]
  exact ⟨hwords, (replicas_report_exactly {}).2.2 {} watched listed [] [] hwords fun _ => rfl⟩

/-- One replica that runs, and a secret in no namespace with the name of its snapshot. -/
def spaceless : ClusterView :=
  { pods := Cache.ofObjects [replica "apiserver" "1"]
    secrets := Cache.ofObjects [{ metadata := { name := some "encryption-config-1" } }] }

/-- The secret of no namespace is reported for a revision that has none in its own. -/
theorem spaceless_secret_stands_in :
    Dict.get? spaceless.secrets ⟨"encryption-config-1", some "openshift-apiserver"⟩ = none ∧
    (ofReplicas spaceless {}).report =
      .ok (.settled (some { metadata := { name := some "encryption-config-1" } })) :=
  ⟨by decide +kernel, rfl⟩

end RolloutControl.DeployedSource
