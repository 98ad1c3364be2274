import RolloutControl.Proofs.Simulation.Steady
import RolloutControl.Proofs.Workload.Ending
/-! When a cycle is content to wait for changes. It fails if any of its steps has failed. Otherwise it waits only if
there is nothing to be waited for: what is wanted runs, is served and has been seen, and it comes back if there is. -/

namespace RolloutControl.Collaborators

open Workload

variable {s : Settings} {σ : Type} (w : Collaborators s σ)

/-- A step of the cycle fails: an object is refused or cannot be made, or the status is not stored, which shows by the
last call. -/
def Breaks (a : σ) : Prop :=
  (∃ x ∈ (cycle s).trace w.answer a, x.call.IsApply ∧ x.call.Failed x.answer) ∨
    (∃ e, Operand.render (w.state a).operator.spec = .error e) ∨ ∃ e, (cycle s).lastError? w.answer a = some e

/-- Nothing is left to be waited for. -/
structure AtRest (a : σ) : Prop where
  unbroken : ¬w.Breaks a
  /-- The deployment has been applied, it has seen its generation, and some replica of it is ready. -/
  operand : ∃ wanted expected force d, .applied wanted expected force d ∈ w.findings (cycle s) a ∧
    d.readyReplicas ≠ 0 ∧ d.generation = d.observedGeneration
  operator : (w.state a).operator.generation = (w.state a).operator.statusOrEmpty.observedGeneration
  registered : ∀ gv ∈ s.groupVersions, Registered (w.state a).view.apiServices gv
  discovered : w.Discovers (cycle s) a

section Reports
variable {w} {a c : σ} {rolled : Except Error Applied} {report : Report} (h : w.Reports a c rolled report)

include h

theorem Reports.breaks_iff : w.Breaks a ↔
    report.errors ≠ [] ∨ ∃ e, (cycle s).lastError? w.answer a = some e := by
  have hrender : (∃ e, Operand.render (w.state a).operator.spec = .error e) ↔
      ¬∃ rendered, Operand.render (w.state a).operator.spec = .ok rendered := by
    cases Operand.render (w.state a).operator.spec <;> simp
  have hrefused : (∃ x ∈ (cycle s).trace w.answer a, x.call.IsApply ∧ x.call.Failed x.answer) ↔
      ¬∀ x ∈ (cycle s).trace w.answer a, x.call.IsApply → ¬x.call.Failed x.answer := by
    simp
  rw [Breaks, hrefused, hrender, ← or_assoc, ← not_and_or, ← w.stepErrors_findings_eq_nil_iff, ← h.errors]

theorem Reports.exists_applied (herrors : report.errors = []) : ∃ d r, rolled = .ok (d, r) := by
  obtain ⟨refusals, v, p, hfindings⟩ := h.findings
  rw [h.errors, hfindings, stepErrors_findings] at herrors
  cases rolled with
  | ok applied => exact ⟨applied.1, applied.2, rfl⟩
  | error e => simp [errorsOf] at herrors

theorem Reports.mem_findings_iff {d : Deployment} : (∃ wanted expected force,
    .applied wanted expected force d ∈ w.findings (cycle s) a) ↔ ∃ r, rolled = .ok (d, r) := by
  obtain ⟨refusals, v, p, hfindings⟩ := h.findings
  rw [hfindings]
  cases rolled with
  | error e => simp [rolledFindings]
  | ok applied =>
    obtain ⟨d', r⟩ := applied
    simp [rolledFindings, eq_comm]

theorem Reports.settles_iff (herrors : report.errors = []) (hbroken : ¬w.Breaks a)
    (hgenerated : ∀ wanted expected force d, .applied wanted expected force d ∈ w.findings (cycle s) a →
      d.metadata.generation ≠ none) (now : Instant) (old : OperatorStatus) :
    isSettled s (report.status s (w.state a).operator now old) = true ↔ w.AtRest a := by
  obtain ⟨d, r, rfl⟩ := h.exists_applied herrors
  have hcurrent := h.deployed d r rfl
  obtain ⟨wanted, expected, force, hfound⟩ := h.mem_findings_iff.2 ⟨r, rfl⟩
  obtain ⟨g, hg⟩ := Option.ne_none_iff_exists'.1 (hgenerated wanted expected force d hfound)
  have hrecorded : report.recorded = some g := by
    rw [h.recorded]
    simp [Except.toOption, hg]
  have hown : d.generation = g := by simp [Deployment.generation, hg]
  have hcaught : d.CaughtUp report.recorded ↔ d.generation = d.observedGeneration := by
    simp [Deployment.CaughtUp, hrecorded, hown]
  rw [isSettled_status_iff, h.problem, hcurrent]
  simp only [Option.some.injEq, exists_eq_left', forall_eq', hcaught]
  constructor
  · rintro ⟨⟨hready, hregistered, hdiscovered⟩, hseen, hobserved⟩
    exact ⟨hbroken, ⟨wanted, expected, force, d, hfound, hready, hseen⟩, hobserved, hregistered, hdiscovered⟩
  · intro hrest
    obtain ⟨wanted', expected', force', d', hfound', hready, hseen⟩ := hrest.operand
    obtain ⟨r', he⟩ := h.mem_findings_iff.1 ⟨wanted', expected', force', hfound'⟩
    obtain ⟨rfl, -⟩ := Prod.mk.inj (Except.ok.inj he)
    exact ⟨⟨hready, hrest.registered, hrest.discovered⟩, hseen, hrest.operator⟩

end Reports

/-- A cycle with something to roll out fails exactly if one of its steps does, and of the others exactly those wait for
changes that find everything at rest. -/
theorem quiet_iff_atRest {a : σ} (hread : w.result (Program.ask .getOperator) a = .ok (w.state a).operator)
    (hdeployable : Deployable (w.state a).operator.spec)
    (hgenerated : ∀ wanted expected force d, .applied wanted expected force d ∈ w.findings (cycle s) a →
      d.metadata.generation ≠ none) :
    (w.result (cycle s) a = .ok .awaitChange ↔ w.AtRest a) ∧
      ((∃ e, w.result (cycle s) a = .error e) ↔ w.Breaks a) ∧
      (w.result (cycle s) a = .ok .requeueRateLimited ↔ ¬w.AtRest a ∧ ¬w.Breaks a) := by
  obtain ⟨c, rolled, report, hreports⟩ := w.exists_reports hread hdeployable
  have hbreaks := hreports.breaks_iff
  have hsettles := hreports.settles_iff
  have hcloses := hreports.closes
  have hunbroken : w.AtRest a → ¬w.Breaks a := fun h => h.unbroken
  generalize w.after (cycle s) a = d at hcloses
  generalize w.result (cycle s) a = result at hcloses ⊢
  generalize (cycle s).lastError? w.answer a = last at hcloses hbreaks
  cases hcloses with
  | failed e hstate =>
    have hbroken : w.Breaks a := hbreaks.2 (.inr ⟨e, rfl⟩)
    have hnone : ¬w.AtRest a := fun h => hunbroken h hbroken
    simp [hbroken, hnone]
  | stored now hstatus hview =>
    by_cases herrors : report.errors = []
    · have hbroken : ¬w.Breaks a := by simp [hbreaks, herrors]
      rw [hstatus, ending, herrors]
      have hsettled := hsettles herrors hbroken hgenerated now (w.state c).operator.statusOrEmpty
      by_cases hrest : w.AtRest a
      · simp [hbroken, hrest, hsettled.2 hrest]
      · have hnot := hsettled.not.2 hrest
        simp [hbroken, hrest, hnot]
    · have hbroken : w.Breaks a := hbreaks.2 (.inl herrors)
      have hnone : ¬w.AtRest a := fun h => hunbroken h hbroken
      simp [hbroken, hnone, ending, herrors]

open Simulation

def oneServed : Settings := { groupVersions := ["apps.openshift.io/v1"] }

def registration : ApiService where
  metadata := { name := some "v1.apps.openshift.io" }
  conditions := [⟨"Available", "True", none⟩]

/-- The one group version is registered and available, and the generation of the operator resource has been
seen before. -/
def served : Steady oneServed := ⟨{ Steady.blank "" with
  settings := oneServed
  ready := 1
  operator := { (Steady.blank "").operator with status := some { observedGeneration := 1 } }
  view := { apiServices := Cache.put ∅ registration } }, rfl, rfl⟩

theorem quiet_iff_atRest_served : (Steady.collaborators oneServed).result (cycle oneServed) served = .ok .awaitChange ∧
    (Steady.collaborators oneServed).AtRest served := by
  have hresult : (Steady.collaborators oneServed).result (cycle oneServed) served = .ok .awaitChange := by
    decide +kernel
  have hgenerated : ((Steady.collaborators oneServed).findings (cycle oneServed) served).all (fun
      | .applied _ _ _ d => d.metadata.generation.isSome
      | _ => true) = true := by decide +kernel
  refine ⟨hresult, ((Steady.collaborators oneServed).quiet_iff_atRest rfl ⟨rfl, _, rfl, rfl⟩
    fun wanted expected force d hd => ?_).1.1 hresult⟩
  exact Option.isSome_iff_ne_none.1 (List.all_eq_true.1 hgenerated _ hd)

end RolloutControl.Collaborators
