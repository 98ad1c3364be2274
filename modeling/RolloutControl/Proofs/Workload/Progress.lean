import RolloutControl.Proofs.Workload.Bookkeeping
/-! What it means that a rollout is reported to be over. The generations of the operator resource and of the deployment
have been seen, unless there is no deployment: one that is missing is not waited for. -/

namespace RolloutControl

namespace Workload

theorem expected_status (r : Report) (s : Settings) (operator : OperatorResource) (now : Instant)
    (old : OperatorStatus) :
    GenerationRecord.expected (r.status s operator now old).generations group resource s.targetSpace
        s.deploymentName =
      ((r.applied.bind (·.1.metadata.generation)) <|>
        GenerationRecord.expected old.generations group resource s.targetSpace s.deploymentName) := by
  unfold Report.status
  cases r.applied with
  | none => rfl
  | some applied =>
    obtain ⟨d, revision⟩ := applied
    dsimp only [Option.bind_some]
    cases d.metadata.generation with
    | none => rfl
    | some generation => exact GenerationRecord.expected_set (deploymentRecord s generation) old.generations

end Workload

namespace Collaborators

open Workload

variable {s : Settings} {σ : Type} (w : Collaborators s σ)

/-- The rollout of the cycle that begins here has been seen to be over: the operator resource is in the generation that
was observed before, and afterwards there is a deployment, which has caught up with what is on record. -/
structure Observed (a : σ) : Prop where
  operator : (w.state a).operator.generation = (w.state a).operator.statusOrEmpty.observedGeneration
  deployment : ∃ d, (w.state (w.after (cycle s) a)).view.deployment? s = some d ∧
    d.CaughtUp (recordedGeneration s (w.state (w.after (cycle s) a)).operator)

/-- There is nothing to be seen. -/
structure Unseen (a : σ) : Prop where
  operator : (w.state a).operator.generation = (w.state a).operator.statusOrEmpty.observedGeneration
  deployment : (w.state (w.after (cycle s) a)).view.deployment? s = none

def progress? (a : σ) : Option Condition :=
  Condition.find? (WorkloadCondition.typeOf s.conditionPrefix WorkloadCondition.progressingSuffix)
    (w.state (w.after (cycle s) a)).operator.statusOrEmpty.conditions

theorem Reports.unseen_stuck {w : Collaborators s σ} {a c : σ} {rolled : Except Error Applied} {report : Report}
    (h : w.Reports a c rolled report) (hmissing : report.current = none) :
    ∃ e, .stuck e ∈ w.findings (cycle s) a := by
  obtain ⟨refusals, v, p, hfindings⟩ := h.findings
  rw [hfindings]
  cases rolled with
  | error e => exact ⟨e, List.mem_append_right _ (List.mem_singleton_self _)⟩
  | ok applied => cases hmissing.symm.trans (h.deployed applied.1 applied.2 rfl)

/-- A cycle that cannot store its status leaves the operator resource as it is. One that can reports the rollout to be
over exactly if it has been seen to be over, or if nothing can be seen because the deployment is missing and could not
be applied. -/
theorem progress_exact {a : σ} (hread : w.result (Program.ask .getOperator) a = .ok (w.state a).operator)
    (hdeployable : Deployable (w.state a).operator.spec) :
    ((∃ e, (cycle s).lastError? w.answer a = some e) →
        (w.state (w.after (cycle s) a)).operator = (w.state a).operator) ∧
      ((cycle s).lastError? w.answer a = none →
        ∃ c, w.progress? a = some c ∧ (c.verdict = .fails ↔ w.Observed a ∨ w.Unseen a)) ∧
      (w.Unseen a → ∃ e, .stuck e ∈ w.findings (cycle s) a) := by
  obtain ⟨c, rolled, report, hreports⟩ := w.exists_reports hread hdeployable
  -- the deployment that the report is about is the one that the cache holds afterwards
  have hview : (w.state (w.after (cycle s) a)).view.deployment? s = report.current := by
    rw [hreports.closes.view_eq, hreports.current]
  have hunseen : w.Unseen a ↔ (w.state a).operator.generation =
      (w.state a).operator.statusOrEmpty.observedGeneration ∧ report.current = none :=
    ⟨fun h => ⟨h.operator, hview.symm.trans h.deployment⟩, fun h => ⟨h.1, hview.trans h.2⟩⟩
  refine ⟨?_, fun hstored => ?_, fun h => hreports.unseen_stuck (hunseen.1 h).2⟩
  · rintro ⟨e, he⟩
    rw [hreports.closes.state_eq he, hreports.operator]
  · obtain ⟨now, hstatus⟩ := hreports.closes.exists_stored hstored
    have hrecorded : recordedGeneration s (w.state (w.after (cycle s) a)).operator = report.recorded := by
      rw [recordedGeneration, hstatus, expected_status, hreports.applied, hreports.operator, hreports.recorded,
        recordedGeneration]
    have hobserved : w.Observed a ↔ (w.state a).operator.generation =
        (w.state a).operator.statusOrEmpty.observedGeneration ∧
          ∃ d, report.current = some d ∧ d.CaughtUp report.recorded := by
      rw [← hview, ← hrecorded]
      exact ⟨fun h => ⟨h.operator, h.deployment⟩, fun h => ⟨h.1, h.2⟩⟩
    obtain ⟨x, hx, hverdict⟩ := exists_find?_status report s (w.state a).operator
      (c := WorkloadCondition.progressing s.conditionPrefix report.current report.recorded
        (w.state a).operator.generation (w.state a).operator.statusOrEmpty.observedGeneration)
      (by simp [Report.conditions]) now (w.state c).operator.statusOrEmpty
    rw [progressing_type] at hx
    refine ⟨x, by rw [progress?, hstatus, hx], ?_⟩
    rw [hverdict, WorkloadCondition.progressing_fails_iff, hobserved, hunseen]
    cases report.current with
    | none => simp
    | some d => simp [and_comm]

open Simulation

/-- The generation of the operator resource has been seen before, the deployment is gone, and it cannot be applied
again. -/
def deserted : Steady {} := FailedRollout.refusing [.deployment] ⟨{ Steady.blank "" with
  operator := { (Steady.blank "").operator with status := some { observedGeneration := 1 } } }, rfl, rfl⟩

theorem progress_exact_deserted : (Steady.collaborators {}).Unseen deserted ∧
    ∃ e, .stuck e ∈ (Steady.collaborators {}).findings (cycle {}) deserted :=
  have hunseen : (Steady.collaborators {}).Unseen deserted := ⟨rfl, by decide +kernel⟩
  ⟨hunseen, ((Steady.collaborators {}).progress_exact rfl ⟨rfl, _, rfl, rfl⟩).2.2 hunseen⟩

/-- That a rollout is reported to be over does not mean that it has been seen to be over. -/
theorem rollout_over_without_deployment : ¬∀ (s : Settings) (σ : Type) (w : Collaborators s σ) (a : σ),
    w.result (Program.ask .getOperator) a = .ok (w.state a).operator → Deployable (w.state a).operator.spec →
      (cycle s).lastError? w.answer a = none → (w.progress? a).map Condition.verdict = some .fails →
        w.Observed a := by
  intro h
  obtain ⟨-, d, hd, -⟩ := h {} (Steady {}) (Steady.collaborators {}) deserted rfl ⟨rfl, _, rfl, rfl⟩
    (by decide +kernel) (by decide +kernel)
  have hmissing : ((Steady.collaborators {}).state
      ((Steady.collaborators {}).after (cycle {}) deserted)).view.deployment? {} = none := by decide +kernel
  cases hmissing.symm.trans hd

end Collaborators

end RolloutControl
