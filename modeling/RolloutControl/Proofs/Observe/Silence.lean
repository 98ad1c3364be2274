import RolloutControl.Proofs.Observe.Repetition
import RolloutControl.Proofs.Workload.Bookkeeping
/-! What is heard of the things that go wrong in one cycle. A cycle of the observers that stores its status tells
everything, one line each. One that does not tells only why not, and nothing of what should have been stored there. -/

namespace RolloutControl

def Mentions (text m : String) : Prop := ∃ before after, text = before ++ m ++ after

theorem mentions_self (m : String) : Mentions m m := ⟨"", "", by simp⟩

theorem mentions_joinLines {l : List String} {m : String} (h : m ∈ l) : Mentions (joinLines l) m := by
  obtain ⟨l, r, rfl⟩ := List.append_of_mem h
  have hrest : ∃ after, joinLines (m :: r) = m ++ after := by
    by_cases hr : r = []
    · exact ⟨"", by simp [hr, joinLines]⟩
    · refine ⟨"\n" ++ joinLines r, ?_⟩
      rw [joinLines, String.intercalate_cons_of_ne_nil hr, String.append_assoc]
      rfl
  obtain ⟨after, hafter⟩ := hrest
  by_cases hl : l = []
  · exact ⟨"", after, by simp [hl, hafter]⟩
  · refine ⟨joinLines l ++ "\n", after, ?_⟩
    rw [joinLines, String.intercalate_append_of_ne_nil hl (List.cons_ne_nil m r)]
    exact (congrArg (joinLines l ++ "\n" ++ ·) hafter).trans (String.append_assoc ..).symm

theorem Collaborators.ends_cycle {s : Settings} {σ : Type} (w : Collaborators s σ) {a : σ}
    (hread : w.result (Program.ask .getOperator) a = .ok (w.state a).operator)
    (hdeployable : Workload.Deployable (w.state a).operator.spec) :
    Workload.Ends (Workload.stepErrors (w.state a).operator.spec (w.findings (Workload.cycle s) a) ++
      ((Workload.cycle s).lastError? w.answer a).toList) (w.result (Workload.cycle s) a) := by
  obtain ⟨c, rolled, report, hreports⟩ := w.exists_reports hread hdeployable
  have hcloses := hreports.closes
  rw [← hreports.errors]
  generalize w.after (Workload.cycle s) a = d at hcloses
  generalize w.result (Workload.cycle s) a = result at hcloses ⊢
  generalize (Workload.cycle s).lastError? w.answer a = last at hcloses ⊢
  cases hcloses with
  | stored now hstatus hview =>
    rw [Option.toList_none, List.append_nil]
    exact Workload.ends_ending s report.errors _
  | failed e hstate => exact ⟨fun h => by simp at h, fun _ => ⟨_, rfl, rfl⟩⟩

namespace Observer

/-- A cycle of observers that finds a document it can read, on an operator resource that is managed. -/
structure Round {s : Settings} {σ : Type} (w : Collaborators s σ) where
  observers : List Observer
  order : List Nat
  start : σ
  existing : Document
  read : w.result (Program.ask .getOperator) start = .ok (w.state start).operator
  managed : (w.state start).operator.spec.managementState = .managed
  readable : Document.ofJson (w.state start).operator.spec.observedConfig = .ok existing

namespace Round

variable {s : Settings} {σ : Type} {w : Collaborators s σ} (run : Round w)

def seen : Observation := observeIn run.observers run.order ⟨(w.state run.start).view, s⟩ run.existing

def looked : σ := w.after (publishAll run.seen.events) (w.after view (w.after (Program.ask .getOperator) run.start))

/-- Why the document that is seen is not stored, if it is another one and cannot be. -/
def unstored : List Error := w.result (storeIfNew run.existing run.seen.config) run.looked

def result : Except Error Action := w.result (cycle run.observers s run.order) run.start

/-- Why the status is not stored, if it cannot be: it is written by the last calls. -/
def unrecorded : Option Error := (cycle run.observers s run.order).lastError? w.answer run.start

/-- What goes wrong before the status is written. -/
def troubles : List Error := run.seen.errors ++ run.unstored

def faults : List Error := run.troubles ++ run.unrecorded.toList

theorem exists_conclude : ∃ b l, run.result = w.result (conclude (run.troubles.map (·.message))) b ∧
    (cycle run.observers s run.order).trace w.answer run.start =
      l ++ (conclude (run.troubles.map (·.message))).trace w.answer b := by
  have hrenews : run.result = w.result (renew run.observers s run.order run.existing)
        (w.after (Program.ask .getOperator) run.start) ∧
      (cycle run.observers s run.order).trace w.answer run.start =
        (Program.ask .getOperator).trace w.answer run.start ++ (renew run.observers s run.order run.existing).trace
          w.answer (w.after (Program.ask .getOperator) run.start) := by
    rw [result, cycle_eq, w.result_bind, w.trace_then, run.read]
    simp only [run.managed, run.readable, ne_eq, not_true_eq_false, if_false, and_self]
  have hasked : w.state (w.after (Program.ask .getOperator) run.start) = w.state run.start :=
    w.state_reading (c := .getOperator) trivial run.start
  have hview : w.result view (w.after (Program.ask .getOperator) run.start) = (w.state run.start).view := by
    rw [w.result_view, hasked]
  obtain ⟨hresult, htrace⟩ := hrenews
  refine ⟨w.after (storeIfNew run.existing run.seen.config) run.looked,
    (Program.ask .getOperator).trace w.answer run.start ++
      (view.trace w.answer (w.after (Program.ask .getOperator) run.start) ++
        ((publishAll run.seen.events).trace w.answer (w.after view (w.after (Program.ask .getOperator) run.start)) ++
          (storeIfNew run.existing run.seen.config).trace w.answer run.looked)), ?_, ?_⟩
  · rw [hresult, renew, w.result_bind, hview, w.result_bind, w.result_bind]
    rfl
  · rw [htrace, renew, w.trace_then, hview, w.trace_then, w.trace_then]
    simp only [List.append_assoc]
    rfl

/-- A status that is stored has the cycle end with all that has gone wrong before, and one that is not has it end with
that alone. -/
theorem result_eq : run.result =
    match run.unrecorded with
    | some e => .error e
    | none => if run.troubles = [] then .ok .awaitChange else .error (.several (run.troubles.map (·.message))) := by
  obtain ⟨b, l, hresult, htrace⟩ := run.exists_conclude
  have hupdates : (conclude (run.troubles.map (·.message))).trace w.answer b =
      (updateStatus (record (run.troubles.map (·.message)))).trace w.answer b := by
    rw [conclude, w.trace_then]
    cases w.result (updateStatus (record (run.troubles.map (·.message)))) b <;> exact List.append_nil _
  rw [hupdates] at htrace
  have hlast : run.unrecorded = errorOf? (w.result (updateStatus (record (run.troubles.map (·.message)))) b) :=
    (Program.lastError?_of_trace w.answer htrace (Program.trace_updateStatus_ne_nil _ _ _)).trans
      (Program.lastError?_updateStatus _ _ _)
  rw [hresult, hlast, conclude, w.result_bind]
  cases w.result (updateStatus (record (run.troubles.map (·.message)))) b with
  | error e => rfl
  | ok x =>
    cases run.troubles with
    | nil => rfl
    | cons e r => rfl

theorem result_of_unrecorded {f : Error} (h : run.unrecorded = some f) : run.result = .error f := by
  rw [run.result_eq, h]

theorem ends_of_recorded (h : run.unrecorded = none) : Workload.Ends run.faults run.result := by
  rw [run.result_eq, faults, h, Option.toList_none, List.append_nil]
  cases run.troubles with
  | nil => exact ⟨fun _ => ⟨_, rfl⟩, fun h => absurd rfl h⟩
  | cons e r => exact ⟨fun h => absurd h (List.cons_ne_nil e r), fun _ => ⟨_, rfl, rfl⟩⟩

/-- A cycle of the observers ends well exactly if nothing goes wrong. If its status is stored, it tells everything, and
else only why not, so that everything is told exactly if that happens to mention the rest. A cycle of the workload with
something to roll out tells everything, whether its status is stored or not. -/
theorem told_iff (run : Round w) : ((∃ action, run.result = .ok action) ↔ run.faults = []) ∧
    (run.unrecorded = none → Workload.Ends run.faults run.result) ∧
    (∀ f, run.unrecorded = some f → run.result = .error f) ∧
    ((∀ e, run.result = .error e → ∀ m ∈ run.faults, Mentions e.message m.message) ↔
      ∀ f, run.unrecorded = some f → ∀ m ∈ run.troubles, Mentions f.message m.message) ∧
    ∀ a, w.result (Program.ask .getOperator) a = .ok (w.state a).operator →
      Workload.Deployable (w.state a).operator.spec →
        Workload.Ends (Workload.stepErrors (w.state a).operator.spec (w.findings (Workload.cycle s) a) ++
          ((Workload.cycle s).lastError? w.answer a).toList) (w.result (Workload.cycle s) a) := by
  refine ⟨?_, run.ends_of_recorded, fun f => run.result_of_unrecorded,
    ⟨fun h f hf m hm => ?_, fun h e he m hm => ?_⟩, fun a => w.ends_cycle⟩
  · rw [run.result_eq, faults]
    cases run.unrecorded with
    | some f => simp
    | none => by_cases h : run.troubles = [] <;> simp [h]
  · exact h f (run.result_of_unrecorded hf) m (List.mem_append_left _ hm)
  · cases hrecorded : run.unrecorded with
    | none =>
      obtain ⟨e', he', hmessage⟩ := (run.ends_of_recorded hrecorded).error (List.ne_nil_of_mem hm)
      obtain rfl := Except.error.inj (he.symm.trans he')
      rw [hmessage]
      exact mentions_joinLines (List.mem_map_of_mem hm)
    | some f =>
      obtain rfl := Except.error.inj (he.symm.trans (run.result_of_unrecorded hrecorded))
      rw [faults, hrecorded, Option.toList_some] at hm
      rcases List.mem_append.1 hm with hm | hm
      · exact h e hrecorded m hm
      · obtain rfl := List.mem_singleton.1 hm
        exact mentions_self _

open Simulation

/-- There are two faults to be reported, and the write of the status times out. -/
def unheard : Round (Steady.collaborators {}) where
  observers := builtInOver fun _ => []
  order := [0, 1, 2, 3, 4]
  start := ⟨{ Cluster.new {} default with
    view := twoFaults.view
    failures := [(.updateStatus, ⟨"Failure", "timeout", "Timeout", 504⟩)] }, rfl, rfl⟩
  existing := ∅
  read := rfl
  managed := rfl
  readable := rfl

theorem not_mentions_of_lt {text m : String} (h : text.length < m.length) : ¬Mentions text m := by
  rintro ⟨before, after, rfl⟩
  simp only [String.length_append] at h
  omega

/-- Errors of a cycle may get lost. -/
theorem faults_unheard : ¬∀ (s : Settings) (σ : Type) (w : Collaborators s σ) (run : Round w),
    ((∃ action, run.result = .ok action) ↔ run.faults = []) ∧
      ∀ e, run.result = .error e → ∀ m ∈ run.faults, Mentions e.message m.message := by
  intro h
  have hlong : ∃ m ∈ unheard.faults, (Error.api ⟨"Failure", "timeout", "Timeout", 504⟩).message.length <
      m.message.length := by decide +kernel
  obtain ⟨m, hm, hlt⟩ := hlong
  exact not_mentions_of_lt hlt ((h {} (Steady {}) (Steady.collaborators {}) unheard).2 _ (by decide +kernel) m hm)

end Round

end Observer

end RolloutControl
