import Mathlib.Data.List.Induction
import RolloutControl.Status.Condition
/-! Conditions over any sequence of changes. A list of conditions is a map from types to what was last said, and each
condition tells since when its verdict has been what it is. -/

namespace RolloutControl.Condition

inductive Change
  | set (now : Instant) (new : Condition)
  | remove (type : String)
deriving DecidableEq

namespace Change

def type : Change → String
  | .set _ new => new.type
  | .remove type => type

def apply (l : List Condition) : Change → List Condition
  | .set now new => Condition.set now new l
  | .remove type => Condition.remove type l

/-- A condition of the type that has the verdict is still there and still has it. -/
def Keeps (type : String) (verdict : Verdict) : Change → Prop
  | .set _ new => new.type = type → new.verdict = verdict
  | .remove removed => removed ≠ type

theorem keeps_of_ne {x : Change} {type : String} (h : x.type ≠ type) (verdict : Verdict) : x.Keeps type verdict := by
  cases x with
  | set now new => exact fun htype => absurd htype h
  | remove removed => exact h

end Change

/-- The conditions after these changes, the first one first. -/
def after (l : List Condition) (changes : List Change) : List Condition := changes.foldl Change.apply l

variable {l : List Condition} {changes earlier later : List Change} {type : String}

theorem after_append (l : List Condition) (earlier later : List Change) :
    after l (earlier ++ later) = after (after l earlier) later :=
  List.foldl_append

theorem after_cons (l : List Condition) (x : Change) (later : List Change) :
    after l (x :: later) = after (x.apply l) later := rfl

@[simp] theorem find?_remove_self (type : String) (l : List Condition) : find? type (remove type l) = none := by
  simp [find?, remove]

theorem find?_remove_ne {removed : String} (h : type ≠ removed) (l : List Condition) :
    find? type (remove removed l) = find? type l := by
  induction l with
  | nil => rfl
  | cons c r ih =>
    by_cases hc : c.type = type
    · simp [find?, remove, hc, h]
    · by_cases hr : c.type = removed <;> simp_all [find?, remove]

theorem find?_apply_of_ne {x : Change} (h : x.type ≠ type) (l : List Condition) :
    find? type (x.apply l) = find? type l := by
  cases x with
  | set now new => exact find?_set_ne now new l (Ne.symm h)
  | remove removed => exact find?_remove_ne (Ne.symm h) l

theorem find?_after_of_ne (h : ∀ x ∈ changes, x.type ≠ type) (l : List Condition) :
    find? type (after l changes) = find? type l := by
  induction changes generalizing l with
  | nil => rfl
  | cons x changes ih =>
    obtain ⟨hx, hchanges⟩ := List.forall_mem_cons.1 h
    rw [after_cons, ih hchanges, find?_apply_of_ne hx]

/-- Neither the conditions of other types nor their order change. -/
theorem filter_apply (x : Change) (l : List Condition) :
    ((x.apply l).filter fun c => c.type ≠ x.type) = l.filter fun c => c.type ≠ x.type := by
  cases x with
  | remove removed =>
    rw [Change.apply, remove, List.filter_filter]
    exact List.filter_congr fun c _ => Bool.and_self _
  | set now new =>
    induction l with
    | nil => simp [Change.apply, Change.type, Condition.set]
    | cons c r ih =>
      by_cases h : c.type = new.type <;> simp_all [Change.apply, Change.type, Condition.set]

theorem map_type_set (now : Instant) (new : Condition) (l : List Condition) :
    (set now new l).map (·.type) =
      if new.type ∈ l.map (·.type) then l.map (·.type) else l.map (·.type) ++ [new.type] := by
  induction l with
  | nil => simp [set]
  | cons c r ih =>
    by_cases h : c.type = new.type
    · simp [set, h]
    · have hmem : new.type ∈ (c :: r).map (·.type) ↔ new.type ∈ r.map (·.type) := by simp [Ne.symm h]
      by_cases hr : new.type ∈ r.map (·.type)
      · rw [if_pos (hmem.2 hr), set, if_neg h, List.map_cons, ih, if_pos hr, List.map_cons]
      · rw [if_neg (mt hmem.1 hr), set, if_neg h, List.map_cons, ih, if_neg hr, List.map_cons, List.cons_append]

theorem map_type_remove (removed : String) (l : List Condition) :
    (remove removed l).map (·.type) = (l.map (·.type)).filter fun type => type ≠ removed := by
  rw [remove, List.filter_map]
  rfl

theorem nodup_apply (h : (l.map (·.type)).Nodup) (x : Change) : ((x.apply l).map (·.type)).Nodup := by
  cases x with
  | set now new =>
    rw [Change.apply, map_type_set]
    split
    · exact h
    · next hnew =>
      refine List.nodup_append.2 ⟨h, List.pairwise_singleton _ _, fun a ha b hb hab => hnew ?_⟩
      rw [← List.mem_singleton.1 hb, ← hab]
      exact ha
  | remove removed =>
    rw [Change.apply, map_type_remove]
    exact h.filter _

theorem nodup_after (h : (l.map (·.type)).Nodup) (changes : List Change) :
    ((after l changes).map (·.type)).Nodup :=
  List.foldlRecOn changes (motive := fun m => (m.map Condition.type).Nodup) Change.apply h
    fun _ hm x _ => nodup_apply hm x

/-- The conditions that are never removed stay in front, in their order. -/
theorem prefix_map_type_after (l : List Condition) (changes : List Change) :
    ((l.map (·.type)).filter fun type => .remove type ∉ changes) <+: (after l changes).map (·.type) := by
  induction changes generalizing l with
  | nil =>
    have hall : ∀ type ∈ l.map (·.type), decide (Change.remove type ∉ []) = true := by simp
    rw [List.filter_eq_self.2 hall]
    exact List.prefix_rfl
  | cons x changes ih =>
    refine List.IsPrefix.trans ?_ (ih (x.apply l))
    cases x with
    | set now new =>
      rw [Change.apply, map_type_set]
      split
      · simp
      · simp
    | remove removed =>
      rw [Change.apply, map_type_remove, List.filter_filter]
      simp [Bool.and_comm]

theorem find?_of_set (l : List Condition) (now : Instant) (new : Condition) : ∃ c,
    find? new.type (set now new l) = some c ∧ c.verdict = new.verdict ∧ c.reason = new.reason ∧
      c.message = new.message := by
  rw [find?_set_self]
  exact ⟨_, rfl, rfl, rfl, rfl⟩

/-- The condition of the type has come to its verdict at this time: then it was set, it was not there before or had
another verdict, and it has kept it since. -/
def Turned (l : List Condition) (type : String) (now : Instant) (verdict : Verdict) (changes : List Change) : Prop :=
  ∃ earlier new later, changes = earlier ++ .set now new :: later ∧ new.type = type ∧ new.verdict = verdict ∧
    (find? type (after l earlier)).map (·.verdict) ≠ some verdict ∧ ∀ x ∈ later, x.Keeps type verdict

theorem find?_apply_of_keeps {c : Condition} {x : Change} (hc : find? type l = some c)
    (hx : x.Keeps type c.verdict) :
    ∃ d, find? type (x.apply l) = some d ∧ d.verdict = c.verdict ∧ d.since = c.since := by
  by_cases htype : x.type = type
  · cases x with
    | remove removed => exact absurd htype hx
    | set now new =>
      obtain rfl : new.type = type := htype
      have hverdict : new.verdict = c.verdict := hx rfl
      rw [Change.apply, find?_set_self, hc]
      exact ⟨_, rfl, hverdict, if_pos hverdict.symm⟩
  · rw [find?_apply_of_ne htype]
    exact ⟨c, hc, rfl, rfl⟩

theorem find?_after_of_keeps {c : Condition} (hc : find? type l = some c)
    (h : ∀ x ∈ changes, x.Keeps type c.verdict) :
    ∃ d, find? type (after l changes) = some d ∧ d.verdict = c.verdict ∧ d.since = c.since := by
  induction changes generalizing l c with
  | nil => exact ⟨c, hc, rfl, rfl⟩
  | cons x changes ih =>
    obtain ⟨hx, hchanges⟩ := List.forall_mem_cons.1 h
    obtain ⟨d, hd, hverdict, hsince⟩ := find?_apply_of_keeps hc hx
    obtain ⟨e, he, heverdict, hesince⟩ := ih hd (hverdict ▸ hchanges)
    exact ⟨e, he, heverdict.trans hverdict, hesince.trans hsince⟩

theorem find?_set_of_ne (now : Instant) {new : Condition}
    (h : (find? new.type l).map (·.verdict) ≠ some new.verdict) :
    ∃ c, find? new.type (set now new l) = some c ∧ c.verdict = new.verdict ∧ c.since = some now := by
  rw [find?_set_self]
  cases hc : find? new.type l with
  | none => exact ⟨_, rfl, rfl, rfl⟩
  | some c =>
    have hverdict : c.verdict ≠ new.verdict := by simpa [hc] using h
    exact ⟨_, rfl, rfl, if_neg hverdict⟩

theorem Turned.find? {now : Instant} {verdict : Verdict} (h : Turned l type now verdict changes) :
    ∃ c, Condition.find? type (after l changes) = some c ∧ c.verdict = verdict ∧ c.since = some now := by
  obtain ⟨earlier, new, later, rfl, rfl, rfl, hbefore, hlater⟩ := h
  obtain ⟨c, hc, hverdict, hsince⟩ := find?_set_of_ne now hbefore
  obtain ⟨d, hd, hdverdict, hdsince⟩ := find?_after_of_keeps hc (hverdict ▸ hlater)
  rw [after_append, after_cons]
  exact ⟨d, hd, hdverdict.trans hverdict, hdsince.trans hsince⟩

theorem Turned.append {now : Instant} {verdict : Verdict} {x : Change} (h : Turned l type now verdict changes)
    (hx : x.Keeps type verdict) : Turned l type now verdict (changes ++ [x]) := by
  obtain ⟨earlier, new, later, rfl, htype, hverdict, hbefore, hlater⟩ := h
  refine ⟨earlier, new, later ++ [x], by simp, htype, hverdict, hbefore, ?_⟩
  exact List.forall_mem_append.2 ⟨hlater, List.forall_mem_singleton.2 hx⟩

/-- A condition that is there has come to its verdict at some time, or it has had it from the beginning. -/
theorem turned_or_keeps {c : Condition} (hc : find? type (after l changes) = some c) :
    (∃ now, Turned l type now c.verdict changes) ∨
      ∃ d, find? type l = some d ∧ d.verdict = c.verdict ∧ ∀ x ∈ changes, x.Keeps type c.verdict := by
  induction changes using List.reverseRecOn generalizing c with
  | nil => exact .inr ⟨c, hc, rfl, by simp⟩
  | append_singleton changes x ih =>
    rw [after_append] at hc
    -- if the last change keeps the verdict, everything is as before it
    have hkept {b : Condition} (hb : find? type (after l changes) = some b) (hverdict : b.verdict = c.verdict)
        (hx : x.Keeps type c.verdict) : (∃ now, Turned l type now c.verdict (changes ++ [x])) ∨
          ∃ d, find? type l = some d ∧ d.verdict = c.verdict ∧ ∀ y ∈ changes ++ [x], y.Keeps type c.verdict := by
      rcases ih hb with ⟨now, hturned⟩ | ⟨d, hd, hdverdict, hkeeps⟩
      · exact .inl ⟨now, (hverdict ▸ hturned).append hx⟩
      · refine .inr ⟨d, hd, hdverdict.trans hverdict, ?_⟩
        exact List.forall_mem_append.2 ⟨hverdict ▸ hkeeps, List.forall_mem_singleton.2 hx⟩
    by_cases htype : x.type = type
    · cases x with
      | remove removed =>
        obtain rfl : removed = type := htype
        simp [after, Change.apply] at hc
      | set now new =>
        obtain rfl : new.type = type := htype
        obtain ⟨d, hd, hverdict, -⟩ := find?_of_set (after l changes) now new
        obtain rfl : d = c := Option.some.inj (hd.symm.trans hc)
        by_cases hbefore : (find? new.type (after l changes)).map (·.verdict) = some d.verdict
        · obtain ⟨b, hb, hbverdict⟩ := Option.map_eq_some_iff.1 hbefore
          exact hkept hb hbverdict fun _ => hverdict.symm
        · exact .inl ⟨now, changes, new, [], rfl, rfl, hverdict.symm, hbefore, by simp⟩
    · have hb : find? type (after l changes) = some c := (find?_apply_of_ne htype _).symm.trans hc
      exact hkept hb rfl (Change.keeps_of_ne htype _)

/-- What the conditions tell of the changes. -/
structure Chronicle (l : List Condition) (changes : List Change) : Prop where
  distinct : ((after l changes).map (·.type)).Nodup
  /-- The conditions of any moment that are not removed later stay in front, in their order. -/
  ordered : ∀ earlier later, changes = earlier ++ later →
    (((after l earlier).map (·.type)).filter fun type => .remove type ∉ later) <+: (after l changes).map (·.type)
  /-- Of a type that was set last there is a condition, and it says what was said then. -/
  said : ∀ earlier now new later, changes = earlier ++ .set now new :: later → (∀ x ∈ later, x.type ≠ new.type) →
    ∃ c, find? new.type (after l changes) = some c ∧ c.verdict = new.verdict ∧ c.reason = new.reason ∧
      c.message = new.message
  removed : ∀ earlier type later, changes = earlier ++ .remove type :: later → (∀ x ∈ later, x.type ≠ type) →
    find? type (after l changes) = none
  untouched : ∀ type, (∀ x ∈ changes, x.type ≠ type) → find? type (after l changes) = find? type l
  /-- The time is that of the change with which the condition came to its verdict, whatever else was said of it. -/
  turned : ∀ type now verdict, Turned l type now verdict changes →
    ∃ c, find? type (after l changes) = some c ∧ c.since = some now
  inherited : ∀ type c, find? type l = some c → (∀ x ∈ changes, x.Keeps type c.verdict) →
    ∃ d, find? type (after l changes) = some d ∧ d.since = c.since
  /-- One of the two explains every time. -/
  dated : ∀ type c, find? type (after l changes) = some c → (∃ now, Turned l type now c.verdict changes) ∨
    ∃ d, find? type l = some d ∧ d.verdict = c.verdict ∧ ∀ x ∈ changes, x.Keeps type c.verdict
  /-- The next change leaves all conditions of other types as they are, and where they are. -/
  spared : ∀ x : Change, ((x.apply (after l changes)).filter fun c => c.type ≠ x.type) =
    (after l changes).filter fun c => c.type ≠ x.type
  /-- To say again what is said already changes nothing. -/
  repeated : ∀ now new c, find? new.type (after l changes) = some c → c.verdict = new.verdict →
    c.reason = new.reason → c.message = new.message → set now new (after l changes) = after l changes

theorem chronicle_after (h : (l.map (·.type)).Nodup) (changes : List Change) : Chronicle l changes where
  distinct := nodup_after h changes
  ordered earlier later hchanges := by
    rw [hchanges, after_append]
    exact prefix_map_type_after (after l earlier) later
  said earlier now new later hchanges hlater := by
    rw [hchanges, after_append, after_cons, find?_after_of_ne hlater]
    exact find?_of_set _ now new
  removed earlier type later hchanges hlater := by
    rw [hchanges, after_append, after_cons, find?_after_of_ne hlater]
    exact find?_remove_self type _
  untouched type hchanges := find?_after_of_ne hchanges l
  turned type now verdict hturned := by
    obtain ⟨c, hc, -, hsince⟩ := hturned.find?
    exact ⟨c, hc, hsince⟩
  inherited type c hc hkeeps := by
    obtain ⟨d, hd, -, hsince⟩ := find?_after_of_keeps hc hkeeps
    exact ⟨d, hd, hsince⟩
  dated type c hc := turned_or_keeps hc
  spared x := filter_apply x _
  repeated now new c hc hverdict hreason hmessage := (set_eq_self_iff now new _).2 ⟨c, hc, hverdict, hreason, hmessage⟩

def tick (n : Nat) : Instant := ⟨n, 0⟩

/-- A deployment that becomes available while a rollout goes on, is upgraded, and becomes available again. -/
def upgrade : List Change :=
  [.set (tick 1) { type := "Available", verdict := .holds },
    .set (tick 2) { type := "Progressing", verdict := .holds, reason := "Upgrading" },
    .set (tick 3) { type := "Available", verdict := .fails, reason := "NoPod" },
    .remove "Progressing",
    .set (tick 4) { type := "Available", verdict := .fails, reason := "NoPodReady" },
    .set (tick 5) { type := "Progressing", verdict := .holds }]

theorem chronicle_after_upgrade :
    Chronicle [{ type := "Progressing", verdict := .holds, since := none }, { type := "Degraded", verdict := .fails }]
      upgrade ∧
    (after [{ type := "Progressing", verdict := .holds }, { type := "Degraded", verdict := .fails }] upgrade).map
      (fun c => (c.type, c.reason, c.since)) =
        [("Degraded", "", none), ("Available", "NoPodReady", some (tick 3)), ("Progressing", "", some (tick 5))] :=
  ⟨chronicle_after (by decide) upgrade, by decide⟩

end RolloutControl.Condition
