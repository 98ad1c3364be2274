import Mathlib.Logic.Basic
import RolloutControl.Encryption.Convergence
/-! The verdict of several sources. It is settled exactly when the enabled sources are unanimous. A
source that fails is heard exactly as long as no unsettled one stands before it, so some order of the
sources hides a failure exactly when some of them fail and others are unsettled. -/

namespace RolloutControl.DeployedSource

variable {read : Bytes → Option EncryptionConfig}

/-- Whether the reduction goes no further than this source. -/
def stops (s : DeployedSource) : Bool :=
  match s.report with
  | .ok (.settled _) => false
  | _ => true

def secret? (s : DeployedSource) : Option Secret :=
  match s.report with
  | .ok (.settled x) => x
  | _ => none

def failure? (s : DeployedSource) : Option Error :=
  match s.report with
  | .error e => some e
  | .ok _ => none

def firstFailure? (sources : List DeployedSource) : Option Error :=
  (sources.filter (·.enabled)).findSome? failure?

theorem failure?_eq_some {s : DeployedSource} {e : Error} : s.failure? = some e ↔ s.report = .error e := by
  unfold failure?
  cases s.report <;> simp

theorem secret?_eq_some {s : DeployedSource} {x : Secret} :
    s.secret? = some x ↔ s.report = .ok (.settled (some x)) := by
  unfold secret?
  rcases s.report with e | _ | _ <;> simp

theorem firstFailure?_isSome {sources : List DeployedSource} :
    (firstFailure? sources).isSome ↔ ∃ s ∈ sources, s.enabled ∧ ∃ e, s.report = .error e := by
  simp [firstFailure?, List.isSome_findSome?, List.any_eq_true, Option.isSome_iff_exists,
    failure?_eq_some]

/-- The first source that stops the reduction decides; without one all secrets are collected. -/
theorem payloads_eq (l : List DeployedSource) : payloads l =
    match l.find? stops with
    | none => .ok (some (l.filterMap secret?))
    | some s => match s.report with
      | .error e => .error e
      | .ok _ => .ok none := by
  induction l with
  | nil => rfl
  | cons s r ih =>
    match hs : s.report with
    | .error e => simp [payloads, stops, hs]
    | .ok .unsettled => simp [payloads, stops, hs]
    | .ok (.settled none) => simpa [payloads, stops, secret?, hs] using ih
    | .ok (.settled (some x)) =>
      simp only [payloads, hs, ih, List.find?_cons, stops, List.filterMap_cons, secret?]
      cases r.find? stops with
      | none => rfl
      | some t => cases ht : t.report <;> simp [ht]

theorem payloads_eq_ok_some {l : List DeployedSource} {m : List Secret} :
    payloads l = .ok (some m) ↔
      (∀ s ∈ l, ∃ x, s.report = .ok (.settled x)) ∧ l.filterMap secret? = m := by
  have hstop : l.find? stops = none ↔ ∀ s ∈ l, ∃ x, s.report = .ok (.settled x) := by
    rw [List.find?_eq_none]
    refine forall₂_congr fun s _ => ?_
    unfold stops
    rcases s.report with e | _ | _ <;> simp
  rw [payloads_eq, ← hstop]
  cases l.find? stops with
  | none => simp
  | some s => cases hs : s.report <;> simp [hs]

theorem agree_eq_true {rules : List EncryptionRule} {l : List Secret} :
    agree read rules l = .ok true ↔ ∀ x ∈ l, ∃ c, x.configBy read = .ok c ∧ c.rules = rules := by
  induction l with
  | nil => simp [agree]
  | cons x r ih =>
    cases hx : x.configBy read with
    | error e => simp [agree, hx]
    | ok c => by_cases hc : c.rules = rules <;> simp [agree, hx, hc, ih]

theorem verdict_eq_settled_none {n : Nat} {l : List Secret} :
    verdict read n l = .ok (.settled none) ↔ l = [] := by
  cases l with
  | nil => simp [verdict]
  | cons golden others =>
    simp only [verdict]
    repeat' split
    all_goals simp

theorem verdict_eq_settled_some {n : Nat} {l : List Secret} {x : Secret} :
    verdict read n l = .ok (.settled (some x)) ↔ l.length = n ∧ l.head? = some x ∧
      ∃ rules, ∀ y ∈ l, ∃ c, y.configBy read = .ok c ∧ c.rules = rules := by
  cases l with
  | nil => simp [verdict]
  | cons golden others =>
    by_cases hn : (golden :: others).length = n
    · cases hc : golden.configBy read with
      | error e => simp [verdict, hn, hc]
      | ok c =>
        have hrules : (∃ rules, ∀ y ∈ golden :: others, ∃ d, y.configBy read = .ok d ∧ d.rules = rules) ↔
            agree read c.rules others = .ok true := by
          simp [agree_eq_true, hc]
        rw [hrules]
        rcases ha : agree read c.rules others with e | _ | _ <;> simp [verdict, hn, hc, ha]
    · rw [verdict, if_pos hn]
      simp only [hn, false_and, iff_false]
      simp

/-- Every enabled source reports a secret, all of these hold the same rules, and `x` is the first. -/
structure Unanimous (read : Bytes → Option EncryptionConfig) (sources : List DeployedSource)
    (x : Secret) : Prop where
  first : ∃ s r, sources.filter (·.enabled) = s :: r ∧ s.report = .ok (.settled (some x))
  agreed : ∃ rules, ∀ s ∈ sources, s.enabled → ∃ y c,
    s.report = .ok (.settled (some y)) ∧ y.configBy read = .ok c ∧ c.rules = rules

theorem evaluateBy_eq_settled {sources : List DeployedSource} {x : Option Secret} :
    evaluateBy read sources = .ok (.settled x) ↔ ∃ l, payloads (sources.filter (·.enabled)) = .ok (some l) ∧
      verdict read (sources.filter (·.enabled)).length l = .ok (.settled x) := by
  rcases h : payloads (sources.filter (·.enabled)) with e | _ | l <;> simp [evaluateBy, h]

theorem evaluateBy_eq_settled_none {sources : List DeployedSource} :
    evaluateBy read sources = .ok (.settled none) ↔
      ∀ s ∈ sources, s.enabled → s.report = .ok (.settled none) := by
  simp only [evaluateBy_eq_settled, verdict_eq_settled_none, exists_eq_right, payloads_eq_ok_some,
    List.filterMap_eq_nil_iff, ← forall₂_and, List.mem_filter, and_imp]
  constructor
  · intro h s hs he
    obtain ⟨x, hx⟩ := (h s hs).1 he
    cases x with
    | none => exact hx
    | some y => simpa [secret?_eq_some.2 hx] using (h s hs).2 he
  · intro h s hs
    exact ⟨fun he => ⟨none, h s hs he⟩, fun he => by simp [secret?, h s hs he]⟩

theorem reports_secrets_iff {l : List DeployedSource} :
    (∀ s ∈ l, ∃ x, s.report = .ok (.settled (some x))) ↔
      (∀ s ∈ l, ∃ x, s.report = .ok (.settled x)) ∧ (l.filterMap secret?).length = l.length := by
  simp only [List.filterMap_length_eq_length, Option.isSome_iff_exists, secret?_eq_some]
  constructor
  · intro h
    refine ⟨fun s hs => ?_, h⟩
    obtain ⟨x, hx⟩ := h s hs
    exact ⟨some x, hx⟩
  · rintro ⟨-, h⟩
    exact h

theorem evaluateBy_eq_settled_some {sources : List DeployedSource} {x : Secret} :
    evaluateBy read sources = .ok (.settled (some x)) ↔ Unanimous read sources x := by
  simp only [evaluateBy_eq_settled, payloads_eq_ok_some, verdict_eq_settled_some]
  constructor
  · rintro ⟨l, ⟨hsettled, rfl⟩, hlen, hhead, rules, hrules⟩
    have hsome := reports_secrets_iff.2 ⟨hsettled, hlen⟩
    refine ⟨?_, rules, fun s hs he => ?_⟩
    · cases hl : sources.filter (·.enabled) with
      | nil => simp [hl] at hhead
      | cons s r =>
        obtain ⟨y, hy⟩ := hsome s (hl ▸ List.mem_cons_self)
        have hyx : y = x := by simpa [hl, secret?_eq_some.2 hy] using hhead
        exact ⟨s, r, rfl, hyx ▸ hy⟩
    · have hmem := List.mem_filter.2 ⟨hs, he⟩
      obtain ⟨y, hy⟩ := hsome s hmem
      obtain ⟨c, hc, hrule⟩ := hrules y (List.mem_filterMap.2 ⟨s, hmem, secret?_eq_some.2 hy⟩)
      exact ⟨y, c, hy, hc, hrule⟩
  · rintro ⟨⟨s, r, hl, hx⟩, rules, hagreed⟩
    have hmem {t : DeployedSource} (ht : t ∈ sources.filter (·.enabled)) :=
      hagreed t (List.mem_filter.1 ht).1 (List.mem_filter.1 ht).2
    have hsome : ∀ t ∈ sources.filter (·.enabled), ∃ y, t.report = .ok (.settled (some y)) := by
      intro t ht
      obtain ⟨y, c, hy, -⟩ := hmem ht
      exact ⟨y, hy⟩
    obtain ⟨hsettled, hlen⟩ := reports_secrets_iff.1 hsome
    refine ⟨_, ⟨hsettled, rfl⟩, hlen, by simp [hl, secret?_eq_some.2 hx], rules, fun y hy => ?_⟩
    obtain ⟨t, ht, hty⟩ := List.mem_filterMap.1 hy
    obtain ⟨z, c, hz, hc⟩ := hmem ht
    obtain rfl : z = y := Option.some.inj ((secret?_eq_some.2 hz).symm.trans hty)
    exact ⟨c, hc⟩

/-- The verdict says that nothing is encrypted exactly when every enabled source says so, and names a
configuration exactly when the enabled sources are unanimous about it. Sources that are not enabled have
no say. All of this holds for every way to read a configuration out of bytes. -/
theorem settled_exactly_if_unanimous (read : Bytes → Option EncryptionConfig)
    (sources : List DeployedSource) :
    (evaluateBy read sources = .ok (.settled none) ↔
      ∀ s ∈ sources, s.enabled → s.report = .ok (.settled none)) ∧
    (∀ x, evaluateBy read sources = .ok (.settled (some x)) ↔ Unanimous read sources x) ∧
    ∀ others, others.filter (·.enabled) = sources.filter (·.enabled) →
      evaluateBy read others = evaluateBy read sources := by
  refine ⟨evaluateBy_eq_settled_none, fun x => evaluateBy_eq_settled_some, fun others h => ?_⟩
  simp only [evaluateBy, h]

/-- The first source that fails is the one that is reported. -/
def HearsFailure (read : Bytes → Option EncryptionConfig) (sources : List DeployedSource) : Prop :=
  ∀ e, firstFailure? sources = some e → evaluateBy read sources = .error e

/-- A source fails, and an enabled one before every failure is unsettled. -/
def Masked (sources : List DeployedSource) : Prop :=
  (firstFailure? sources).isSome ∧
    ∃ s, (sources.filter (·.enabled)).find? stops = some s ∧ s.report = .ok .unsettled

theorem evaluateBy_of_stops {sources : List DeployedSource} {s : DeployedSource}
    (h : (sources.filter (·.enabled)).find? stops = some s) :
    evaluateBy read sources = match s.report with
      | .error e => .error e
      | .ok _ => .ok .unsettled := by
  simp only [evaluateBy, payloads_eq, h]
  cases s.report <;> rfl

theorem find?_stops_of_failure {l : List DeployedSource} {e : Error} (h : l.findSome? failure? = some e) :
    ∃ s, l.find? stops = some s ∧ (s.report = .error e ∨ s.report = .ok .unsettled) := by
  induction l with
  | nil => simp at h
  | cons s r ih =>
    match hs : s.report with
    | .error d =>
      have hd : d = e := by simpa [failure?, hs] using h
      exact ⟨s, by simp [stops, hs], .inl (hd ▸ hs)⟩
    | .ok .unsettled => exact ⟨s, by simp [stops, hs], .inr hs⟩
    | .ok (.settled x) =>
      obtain ⟨t, ht, hreport⟩ := ih (by simpa [failure?, hs] using h)
      exact ⟨t, by simpa [stops, hs] using ht, hreport⟩

theorem hearsFailure_iff {sources : List DeployedSource} : HearsFailure read sources ↔ ¬Masked sources := by
  constructor
  · rintro h ⟨hfail, s, hs, hu⟩
    obtain ⟨e, he⟩ := Option.isSome_iff_exists.1 hfail
    have heval := h e he
    rw [evaluateBy_of_stops hs, hu] at heval
    simp at heval
  · intro h e he
    obtain ⟨s, hs, hreport⟩ := find?_stops_of_failure he
    rcases hreport with hreport | hreport
    · rw [evaluateBy_of_stops hs, hreport]
    · exact absurd ⟨he ▸ rfl, s, hs, hreport⟩ h

/-- A failure is reported exactly as long as no unsettled source stands before the first one, and in
every order of the sources exactly when no enabled source is unsettled or none fails. -/
theorem failure_heard_iff (read : Bytes → Option EncryptionConfig) (sources : List DeployedSource) :
    (HearsFailure read sources ↔ ¬Masked sources) ∧
    ((∀ l : List DeployedSource, l.Perm sources → HearsFailure read l) ↔
      ¬((∃ s ∈ sources, s.enabled ∧ s.report = .ok .unsettled) ∧
        ∃ s ∈ sources, s.enabled ∧ ∃ e, s.report = .error e)) := by
  refine ⟨hearsFailure_iff, ?_, ?_⟩
  · rintro h ⟨⟨s, hs, he, hu⟩, hfail⟩
    obtain ⟨before, after, rfl⟩ := List.append_of_mem hs
    -- the unsettled source is asked first
    have hperm : (s :: (before ++ after)).Perm (before ++ s :: after) := List.perm_middle.symm
    refine hearsFailure_iff.1 (h _ hperm) ⟨?_, s, by simp [he, stops, hu], hu⟩
    obtain ⟨t, ht, hfail⟩ := hfail
    exact firstFailure?_isSome.2 ⟨t, hperm.mem_iff.2 ht, hfail⟩
  · intro h l hperm
    rw [hearsFailure_iff]
    rintro ⟨hfail, s, hs, hu⟩
    obtain ⟨t, ht, hfail⟩ := firstFailure?_isSome.1 hfail
    have hmem := List.mem_filter.1 (List.mem_of_find?_eq_some hs)
    exact h ⟨⟨s, hperm.mem_iff.1 hmem.1, hmem.2, hu⟩, t, hperm.mem_iff.1 ht, hfail⟩

/-- An unsettled source hides the failure of the one behind it. -/
theorem failure_behind_unsettled : ¬HearsFailure EncryptionConfig.ofBytes?
    [⟨true, .ok .unsettled⟩, ⟨true, .error (.object (.described "pods unreadable"))⟩] := by
  intro h
  have heval := h (.object (.described "pods unreadable")) rfl
  simp [evaluateBy, payloads] at heval

end RolloutControl.DeployedSource
