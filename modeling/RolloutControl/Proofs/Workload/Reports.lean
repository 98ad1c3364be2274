import Mathlib.Data.List.Nodup
import RolloutControl.Proofs.Workload.Success
/-! Reports that are made twice. Putting the same conditions into a status once more leaves it as it is,
times and all, and so does recording the same generation, so the second report has nothing to write. -/

namespace RolloutControl

namespace GenerationRecord

theorem isAbout_self (r : GenerationRecord) : r.isAbout r.group r.resource r.space r.name = true := by
  simp [isAbout]

theorem set_set_self (new : GenerationRecord) (l : List GenerationRecord) : set new (set new l) = set new l := by
  induction l with
  | nil => simp [set, isAbout_self]
  | cons r l ih =>
    by_cases h : r.isAbout new.group new.resource new.space new.name = true
    · simp [set, h, isAbout_self]
    · simp [set, h, ih]

end GenerationRecord

namespace Workload

theorem find?_setAll_of_ne {now : Instant} {l : List Condition} {type : String} (h : ∀ c ∈ l, type ≠ c.type)
    (m : List Condition) : Condition.find? type (setAll now l m) = Condition.find? type m := by
  induction l generalizing m with
  | nil => rfl
  | cons c r ih =>
    obtain ⟨hc, hr⟩ := List.forall_mem_cons.1 h
    have hrest : Condition.find? type (setAll now r (Condition.set now c m)) =
        Condition.find? type (Condition.set now c m) := ih hr _
    exact hrest.trans (Condition.find?_set_ne now c m hc)

theorem exists_find?_setAll {now : Instant} {l : List Condition} (h : (l.map Condition.type).Nodup)
    (m : List Condition) : ∀ c ∈ l, ∃ x, Condition.find? c.type (setAll now l m) = some x ∧
      x.verdict = c.verdict ∧ x.reason = c.reason ∧ x.message = c.message := by
  induction l generalizing m with
  | nil => simp
  | cons c r ih =>
    rw [List.map_cons, List.nodup_cons] at h
    intro d hd
    rcases List.mem_cons.1 hd with rfl | hd
    · have hne : ∀ x ∈ r, d.type ≠ x.type := fun x hx he => h.1 (he ▸ List.mem_map_of_mem hx)
      have hfound : Condition.find? d.type (setAll now r (Condition.set now d m)) =
          Condition.find? d.type (Condition.set now d m) := find?_setAll_of_ne hne _
      rw [Condition.find?_set_self] at hfound
      exact ⟨_, hfound, rfl, rfl, rfl⟩
    · exact ih h.2 (Condition.set now c m) d hd

theorem setAll_eq_self {now : Instant} {l m : List Condition}
    (h : ∀ c ∈ l, ∃ x, Condition.find? c.type m = some x ∧ x.verdict = c.verdict ∧ x.reason = c.reason ∧
      x.message = c.message) : setAll now l m = m := by
  induction l with
  | nil => rfl
  | cons c r ih =>
    obtain ⟨hc, hr⟩ := List.forall_mem_cons.1 h
    have hsame : Condition.set now c m = m := (Condition.set_eq_self_iff now c m).2 hc
    have hrest : setAll now (c :: r) m = setAll now r (Condition.set now c m) := rfl
    rw [hrest, hsame]
    exact ih hr

theorem setAll_setAll {l : List Condition} (h : (l.map Condition.type).Nodup) (now now' : Instant)
    (m : List Condition) : setAll now' l (setAll now l m) = setAll now l m :=
  setAll_eq_self (exists_find?_setAll h m)

theorem available_type (name : String) (problem : Option Unavailable) :
    (WorkloadCondition.available name problem).type =
      WorkloadCondition.typeOf name WorkloadCondition.availableSuffix := by
  cases problem <;> rfl

theorem progressing_type (name : String) (d : Option Deployment) (recorded : Option Int)
    (generation observed : Int) :
    (WorkloadCondition.progressing name d recorded generation observed).type =
      WorkloadCondition.typeOf name WorkloadCondition.progressingSuffix := by
  unfold WorkloadCondition.progressing
  dsimp only
  split <;> rfl

theorem degraded_type (name : String) (d : Option Deployment) (desired : Int) :
    (WorkloadCondition.degraded name d desired).type =
      WorkloadCondition.typeOf name WorkloadCondition.degradedSuffix := by
  unfold WorkloadCondition.degraded
  dsimp only
  split
  · rfl
  · split <;> rfl

theorem workloadDegraded_type (name : String) (errors : List Error) :
    (WorkloadCondition.workloadDegraded name errors).type =
      WorkloadCondition.typeOf name WorkloadCondition.workloadSuffix := by
  cases errors <;> rfl

theorem types_conditions (r : Report) (s : Settings) (operator : OperatorResource) :
    (r.conditions s operator).map Condition.type =
      [WorkloadCondition.availableSuffix, WorkloadCondition.progressingSuffix, WorkloadCondition.degradedSuffix,
        WorkloadCondition.workloadSuffix].map (WorkloadCondition.typeOf s.conditionPrefix) := by
  simp [Report.conditions, available_type, progressing_type, degraded_type, workloadDegraded_type]

theorem nodup_conditions (r : Report) (s : Settings) (operator : OperatorResource) :
    ((r.conditions s operator).map Condition.type).Nodup := by
  rw [types_conditions]
  apply List.Nodup.map
  · intro x y h
    exact (String.append_right_inj s.conditionPrefix).1 h
  · decide

/-- A report that says the same as the one before leaves the status as it is. -/
theorem Report.status_again {r r' : Report} {s : Settings} {operator operator' : OperatorResource}
    (hconditions : r'.conditions s operator' = r.conditions s operator) (happlied : r'.applied = r.applied)
    (hcurrent : r'.current = r.current) (hgeneration : operator'.generation = operator.generation)
    (now now' : Instant) (old : OperatorStatus) :
    r'.status s operator' now' (r.status s operator now old) = r.status s operator now old := by
  have hset := setAll_setAll (nodup_conditions r s operator) now now' old.conditions
  unfold Report.status
  rw [hconditions, happlied, hcurrent, hgeneration]
  cases r.applied with
  | none => simp [hset]
  | some x =>
    obtain ⟨d, revision⟩ := x
    dsimp only
    generalize d.metadata.generation = known
    cases known with
    | none => simp [hset]
    | some generation => simp [hset, GenerationRecord.set_set_self]

variable {s : Settings} {operator : OperatorResource} {errors : List Error} {d : Deployment} {r : Int}
  {problem : Option Unavailable}

theorem successReport_latestRevision (now : Instant) (old : OperatorStatus) :
    ((successReport s operator errors (d, r) problem).status s operator now old).latestRevision = r := by
  rw [Collaborators.status_latestRevision]
  rfl

theorem successReport_observedGeneration (now : Instant) (old : OperatorStatus) :
    ((successReport s operator errors (d, r) problem).status s operator now old).observedGeneration =
      if d.metadata.generation.isSome then operator.generation else old.observedGeneration := by
  unfold Report.status successReport
  dsimp only
  generalize d.metadata.generation = known
  cases known <;> simp

theorem successReport_generations (now : Instant) (old : OperatorStatus) (h : d.metadata.generation = none) :
    ((successReport s operator errors (d, r) problem).status s operator now old).generations =
      old.generations := by
  unfold Report.status successReport
  simp [h]

end Workload

end RolloutControl
