import RolloutControl.Proofs.Effect.Traffic
import RolloutControl.Proofs.Observe.Repetition
import RolloutControl.Proofs.Workload.Reports
/-! Two controllers keep one status. Each of them has fields of its own, and what it puts into the status leaves those
of the other one as they are. Since no update is lost, every field says what the controller that it belongs to has
last written. -/

namespace RolloutControl

namespace Workload

/-- The types of the conditions that a cycle sets. -/
def conditionTypes (s : Settings) : List String :=
  [WorkloadCondition.availableSuffix, WorkloadCondition.progressingSuffix, WorkloadCondition.degradedSuffix,
    WorkloadCondition.workloadSuffix].map (WorkloadCondition.typeOf s.conditionPrefix)

theorem errorCondition_notMem_conditionTypes (s : Settings) : Observer.errorCondition ∉ conditionTypes s := by
  intro h
  obtain ⟨suffix, hsuffix, htype⟩ := List.mem_map.1 h
  have hends : suffix.toList <:+ Observer.errorCondition.toList :=
    ⟨s.conditionPrefix.toList, by rw [← htype, WorkloadCondition.typeOf, String.toList_append]⟩
  have hnone : ∀ x ∈ [WorkloadCondition.availableSuffix, WorkloadCondition.progressingSuffix,
      WorkloadCondition.degradedSuffix, WorkloadCondition.workloadSuffix],
      ¬x.toList <:+ Observer.errorCondition.toList := by decide
  exact hnone suffix hsuffix hends

def await (s : Settings) (now : Instant) (status : OperatorStatus) : OperatorStatus :=
  { status with
    conditions := setAll now [WorkloadCondition.waiting s.conditionPrefix,
      WorkloadCondition.workloadDegraded s.conditionPrefix []] status.conditions }

theorem waitForConfig_eq (s : Settings) :
    waitForConfig s = updateStatus (await s) >>= fun
      | .error e => pure (.error e)
      | .ok _ => pure (.ok .requeueRateLimited) := rfl

theorem Report.conditions_status (r : Report) (s : Settings) (operator : OperatorResource) (now : Instant)
    (old : OperatorStatus) :
    (r.status s operator now old).conditions = setAll now (r.conditions s operator) old.conditions := by
  unfold Report.status
  dsimp only
  split
  · rfl
  · split <;> rfl

theorem type_mem_of_await (s : Settings) :
    ∀ c ∈ [WorkloadCondition.waiting s.conditionPrefix, WorkloadCondition.workloadDegraded s.conditionPrefix []],
      c.type ∈ conditionTypes s := by
  simp [conditionTypes, WorkloadCondition.waiting, workloadDegraded_type]

theorem type_mem_of_report (r : Report) (s : Settings) (operator : OperatorResource) :
    ∀ c ∈ r.conditions s operator, c.type ∈ conditionTypes s := by
  intro c hc
  rw [conditionTypes, ← types_conditions r s operator]
  exact List.mem_map_of_mem hc

theorem find?_setAll_errorCondition {s : Settings} {l : List Condition}
    (h : ∀ c ∈ l, c.type ∈ conditionTypes s) (now : Instant) (m : List Condition) :
    Condition.find? Observer.errorCondition (setAll now l m) = Condition.find? Observer.errorCondition m :=
  find?_setAll_of_ne (fun c hc (he : Observer.errorCondition = c.type) =>
    errorCondition_notMem_conditionTypes s (he ▸ h c hc)) m

end Workload

def Controller.Changes (s : Settings) : Controller → (Instant → OperatorStatus → OperatorStatus) → Prop
  | .observer, change => ∃ messages, change = Observer.record messages
  | .workload, change => change = Workload.await s ∨
    ∃ (report : Workload.Report) (operator : OperatorResource), change = report.status s operator

namespace Update

def author? : Update → Option Controller
  | .status author _ => some author
  | .observedConfig _ => none

/-- Whether the controllers update the resource like this. -/
def IsMadeFor (s : Settings) : Update → Prop
  | .status author change => author.Changes s change
  | .observedConfig _ => True

end Update

/-- A part of the status that one of the controllers keeps. -/
inductive StatusField
  | condition (type : String)
  | observedGeneration
  | readyReplicas
  | generations
  | latestRevision

namespace StatusField

abbrev Value : StatusField → Type
  | .condition _ => Option Condition
  | .observedGeneration | .readyReplicas | .latestRevision => Int
  | .generations => List GenerationRecord

def value : (f : StatusField) → OperatorStatus → f.Value
  | .condition type, status => Condition.find? type status.conditions
  | .observedGeneration, status => status.observedGeneration
  | .readyReplicas, status => status.readyReplicas
  | .generations, status => status.generations
  | .latestRevision, status => status.latestRevision

def BelongsTo (s : Settings) : StatusField → Controller → Prop
  | .condition type, .observer => type = Observer.errorCondition
  | .condition type, .workload => type ∈ Workload.conditionTypes s
  | _, author => author = .workload

variable {s : Settings} {f : StatusField} {change : Instant → OperatorStatus → OperatorStatus}

/-- The config observer leaves the fields of the workload as they are. -/
theorem value_record (hf : f.BelongsTo s .workload) (messages : List String) (now : Instant) (old : OperatorStatus) :
    f.value (Observer.record messages now old) = f.value old := by
  cases f with
  | condition type =>
    refine Condition.find?_set_ne now (Observer.conditionOf messages) old.conditions fun htype => ?_
    rw [Observer.conditionOf_type] at htype
    exact Workload.errorCondition_notMem_conditionTypes s (htype ▸ hf)
  | _ => rfl

/-- The workload leaves the field of the config observer as it is. -/
theorem value_of_workload (hf : f.BelongsTo s .observer) (hchange : Controller.workload.Changes s change)
    (now : Instant) (old : OperatorStatus) : f.value (change now old) = f.value old := by
  cases f with
  | condition type =>
    obtain rfl : type = Observer.errorCondition := hf
    rcases hchange with rfl | ⟨report, operator, rfl⟩
    · exact Workload.find?_setAll_errorCondition (Workload.type_mem_of_await s) now old.conditions
    · rw [value, Workload.Report.conditions_status]
      exact Workload.find?_setAll_errorCondition (Workload.type_mem_of_report report s operator) now old.conditions
  | _ => exact nomatch hf

theorem value_of_changes {author other : Controller} (hf : f.BelongsTo s author) (hne : other ≠ author)
    (hchange : other.Changes s change) (now : Instant) (old : OperatorStatus) :
    f.value (change now old) = f.value old := by
  cases other with
  | observer =>
    obtain ⟨messages, rfl⟩ := hchange
    cases author with
    | observer => exact absurd rfl hne
    | workload => exact value_record hf messages now old
  | workload =>
    cases author with
    | observer => exact value_of_workload hf hchange now old
    | workload => exact absurd rfl hne

end StatusField

namespace Traffic

variable {t : Traffic} {first : OperatorResource}

/-- The status as a controller has last written it, or the first one if it has not written yet. -/
def lastStatus (t : Traffic) (first : OperatorResource) (author : Controller) : OperatorStatus :=
  (((t.writes.find? fun w => w.writer.bind (·.2.author?) = some author).map (·.after)).getD first).statusOrEmpty

/-- What all the others leave as it is is as it was written last. -/
theorem Linked.value_eq {α : Type} {f : OperatorStatus → α} {p : Write → Bool} {l : List Write}
    {stored : OperatorResource} (h : Linked first l stored)
    (hkept : ∀ w ∈ l, p w = false → f w.after.statusOrEmpty = f w.before.statusOrEmpty) :
    f stored.statusOrEmpty = f (((l.find? p).map (·.after)).getD first).statusOrEmpty := by
  induction l generalizing stored with
  | nil => exact congrArg (fun r => f r.statusOrEmpty) h
  | cons w l ih =>
    obtain ⟨rfl, hlinked⟩ := h
    cases hp : p w with
    | true => simp [hp]
    | false =>
      have hbefore := ih hlinked fun v hv => hkept v (List.mem_cons_of_mem w hv)
      simpa [hp] using (hkept w List.mem_cons_self hp).trans hbefore

theorem value_eq_of_author_ne {s : Settings} {f : StatusField} {author : Controller} (hf : f.BelongsTo s author)
    {u : Update} (hu : u.IsMadeFor s) (hne : u.author? ≠ some author) {before after : OperatorResource}
    (h : u.Replaces before after) : f.value after.statusOrEmpty = f.value before.statusOrEmpty := by
  cases u with
  | status other change =>
    obtain ⟨⟨now, hstatus⟩, -⟩ := h
    have hother : other ≠ author := fun he => hne (congrArg some he)
    simpa [OperatorResource.statusOrEmpty, hstatus] using
      StatusField.value_of_changes hf hother hu now before.statusOrEmpty
  | observedConfig d => simp [OperatorResource.statusOrEmpty, h.2]

/-- Whatever the order of the steps: the writes follow one another without a gap, and each of the updates replaces what
was stored right before by its change of just that. An update that succeeds has written once, as it tells, or there was
nothing to write. If the controllers alone write a field of the status, it says what the one that it belongs to has
last written. -/
theorem Reachable.no_update_lost (h : Reachable first t) :
    Linked first t.writes t.stored ∧
      (∀ w ∈ t.writes, ∀ i u, w.writer = some (i, u) → u.Replaces w.before w.after) ∧
      (∀ (i : Nat) (u : Update) (x : u.Result), t.updates[i]? = some ⟨u, .done x⟩ → t.Accounts i u x) ∧
      ∀ s : Settings, (∀ y ∈ t.updates, y.update.IsMadeFor s) → ∀ (f : StatusField) (author : Controller),
        f.BelongsTo s author →
        (∀ w ∈ t.writes, w.writer = none → f.value w.after.statusOrEmpty = f.value w.before.statusOrEmpty) →
        f.value t.stored.statusOrEmpty = f.value (t.lastStatus first author) := by
  have hsound := h.sound
  refine ⟨hsound.linked, hsound.replaced, fun i u x hi => hsound.accounts hi, ?_⟩
  intro s hmade f author hf hforeign
  refine hsound.linked.value_eq fun w hw hauthor => ?_
  cases hwriter : w.writer with
  | none => exact hforeign w hw hwriter
  | some writer =>
    obtain ⟨i, u⟩ := writer
    obtain ⟨y, hy, rfl⟩ := hsound.known w hw i u hwriter
    have hne : y.update.author? ≠ some author := by simpa [hwriter] using hauthor
    exact value_eq_of_author_ne hf (hmade y (List.mem_of_getElem? hy)) hne (hsound.replaced w hw i _ hwriter)

def plain (version : String) (status : Option OperatorStatus) : OperatorResource :=
  { metadata := { resourceVersion := some version }, status }

def awaiting : OperatorStatus := Workload.await {} ⟨0, 0⟩ {}

def failing (old : OperatorStatus) : OperatorStatus := Observer.record ["no image"] ⟨0, 0⟩ old

/-- Both controllers have read the same version, and the second one writes first. The other one is refused, reads once
more, and adds its condition to those of the second one. -/
theorem Reachable.no_update_lost_race :
    ∃ t, Reachable (plain "1" none) t ∧ t.stored = plain "3" (some (failing awaiting)) ∧
      Linked (plain "1" none) t.writes t.stored ∧
      (∀ w ∈ t.writes, ∀ i u, w.writer = some (i, u) → u.Replaces w.before w.after) ∧
      (∀ (i : Nat) (u : Update) (x : u.Result), t.updates[i]? = some ⟨u, .done x⟩ → t.Accounts i u x) ∧
      ∀ (f : StatusField) (author : Controller), f.BelongsTo {} author →
        f.value t.stored.statusOrEmpty = f.value (t.lastStatus (plain "1" none) author) := by
  have h : Reachable (plain "1" none) _ := .start
  have h := h.step (.begin (.status .observer (Observer.record ["no image"])))
  have h := h.step (.begin (.status .workload (Workload.await {})))
  have h := h.step (.answer (i := 0) (c := .getOperator) (x := .ok (plain "1" none)) rfl rfl)
  have h := h.step (.answer (i := 1) (c := .getOperator) (x := .ok (plain "1" none)) rfl rfl)
  have h := h.step (.answer (i := 1) (c := .clock) (x := ⟨0, 0⟩) rfl trivial)
  have h := h.step (.write (i := 1) (c := .writeStatus "1" awaiting) (x := .ok (plain "2" (some awaiting)))
    rfl ⟨rfl, rfl, rfl, rfl⟩ (by decide))
  have h := h.step (.answer (i := 0) (c := .clock) (x := ⟨0, 0⟩) rfl trivial)
  have h := h.step (.answer (i := 0) (c := .writeStatus "1" (failing {})) (x := .error (.api (.conflict "")))
    rfl trivial)
  have h := h.step (.answer (i := 0) (c := .sleep Attempt.pause) (x := ()) rfl trivial)
  have h := h.step (.answer (i := 0) (c := .getOperator) (x := .ok (plain "2" (some awaiting))) rfl rfl)
  have h := h.step (.answer (i := 0) (c := .clock) (x := ⟨0, 0⟩) rfl trivial)
  have h := h.step (.write (i := 0) (c := .writeStatus "2" (failing awaiting))
    (x := .ok (plain "3" (some (failing awaiting)))) rfl ⟨rfl, rfl, rfl, rfl⟩ (by decide))
  obtain ⟨hlinked, hreplaced, haccounts, hfields⟩ := Reachable.no_update_lost h
  refine ⟨_, h, rfl, hlinked, hreplaced, haccounts, fun f author hf => hfields {} (fun y hy => ?_) f author hf ?_⟩
  · have hupdate := List.mem_map_of_mem (f := Running.update) hy
    change y.update ∈ [.status .observer (Observer.record ["no image"]), .status .workload (Workload.await {})]
      at hupdate
    rcases List.mem_pair.1 hupdate with he | he
    · rw [he]
      exact ⟨_, rfl⟩
    · rw [he]
      exact .inl rfl
  · intro w hw hwriter
    have hmem := List.mem_map_of_mem (f := Write.writer) hw
    rw [hwriter] at hmem
    change none ∈ [some _, some _] at hmem
    simp at hmem

end Traffic

end RolloutControl
