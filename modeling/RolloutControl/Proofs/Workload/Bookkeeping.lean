import RolloutControl.Proofs.Simulation.Health
import RolloutControl.Proofs.Workload.Ending
/-! What a cycle puts on record. If something stands in the way of its rollout, the record of rollouts stays as it is.
If the deployment is applied, it is brought up to date, and the next cycle goes by it. Whatever goes wrong is reported,
once in the status and once by the cycle itself. -/

namespace RolloutControl

/-- What a status has on record about rollouts: the generation of the operator resource that was rolled out last, the
generations of what was applied, and the revision. -/
def OperatorStatus.books (x : OperatorStatus) : Int × List GenerationRecord × Int :=
  (x.observedGeneration, x.generations, x.latestRevision)

namespace GenerationRecord

variable {group resource space name : String}

theorem expected_set (new : GenerationRecord) (l : List GenerationRecord) :
    expected (set new l) new.group new.resource new.space new.name = some new.lastGeneration := by
  induction l with
  | nil => simp [set, expected, isAbout_self]
  | cons r l ih =>
    by_cases h : r.isAbout new.group new.resource new.space new.name = true
    · simp [set, h, expected, isAbout_self]
    · rw [expected] at ih
      simp [set, h, expected, ih]

theorem filter_set (new : GenerationRecord) (l : List GenerationRecord) :
    (set new l).filter (fun r => !r.isAbout new.group new.resource new.space new.name) =
      l.filter fun r => !r.isAbout new.group new.resource new.space new.name := by
  induction l with
  | nil => simp [set, isAbout_self]
  | cons r l ih =>
    by_cases h : r.isAbout new.group new.resource new.space new.name = true
    · simp [set, h, isAbout_self]
    · simp [set, h, ih]

end GenerationRecord

/-- Whether a call that applies a deployment passes this generation on. -/
def Call.Expects (recorded : Option Int) : Call → Prop
  | .applyDeployment _ expected _ => expected = recorded
  | _ => True

theorem Collaborators.Reading.expects {recorded : Option Int} {c : Call} (h : Collaborators.Reading c) :
    c.Expects recorded := by
  cases c with
  | applyDeployment => exact h.elim
  | _ => trivial

theorem Call.IsStatusWrite.expects {recorded : Option Int} {c : Call} (h : c.IsStatusWrite) : c.Expects recorded := by
  cases c with
  | applyDeployment => exact h.elim
  | _ => trivial

namespace Workload

variable {s : Settings}

def deploymentRecord (s : Settings) (generation : Int) : GenerationRecord :=
  ⟨group, resource, s.targetSpace, s.deploymentName, generation, ""⟩

theorem books_status_of_none {r : Report} (h : r.applied = none) (s : Settings) (operator : OperatorResource)
    (now : Instant) (old : OperatorStatus) : (r.status s operator now old).books = old.books := by
  simp [Report.status, h, OperatorStatus.books]

theorem books_status_of_some {r : Report} {d : Deployment} {revision generation : Int}
    (h : r.applied = some (d, revision)) (hd : d.metadata.generation = some generation) (s : Settings)
    (operator : OperatorResource) (now : Instant) (old : OperatorStatus) :
    (r.status s operator now old).books =
      (operator.generation, (deploymentRecord s generation).set old.generations, revision) := by
  simp [Report.status, h, hd, OperatorStatus.books, deploymentRecord]

/-- The condition about the workload says whether anything went wrong, and what. -/
structure Degraded (errors : List Error) (c : Condition) : Prop where
  holds : c.verdict = .holds ↔ errors ≠ []
  fails : c.verdict = .fails ↔ errors = []
  message : c.message = joinLines (errors.map (·.message))

theorem exists_degraded (r : Report) (s : Settings) (operator : OperatorResource) (now : Instant)
    (old : OperatorStatus) :
    ∃ c, Condition.find? (WorkloadCondition.typeOf s.conditionPrefix WorkloadCondition.workloadSuffix)
      (r.status s operator now old).conditions = some c ∧ Degraded r.errors c := by
  have hmem : WorkloadCondition.workloadDegraded s.conditionPrefix r.errors ∈ r.conditions s operator := by
    simp [Report.conditions]
  obtain ⟨c, hfound, hverdict, -, hmessage⟩ :=
    @exists_find?_setAll now _ (nodup_conditions r s operator) old.conditions _ hmem
  rw [workloadDegraded_type] at hfound
  refine ⟨c, by rw [conditions_status, hfound], ?_⟩
  cases herrors : r.errors with
  | nil =>
    rw [herrors] at hverdict hmessage
    exact ⟨by simp [hverdict, WorkloadCondition.workloadDegraded],
      by simp [hverdict, WorkloadCondition.workloadDegraded], hmessage⟩
  | cons e l =>
    rw [herrors] at hverdict hmessage
    exact ⟨by simp [hverdict, WorkloadCondition.workloadDegraded],
      by simp [hverdict, WorkloadCondition.workloadDegraded], hmessage⟩

/-- How a cycle ends in which these errors occurred. -/
structure Ends (errors : List Error) (result : Except Error Action) : Prop where
  ok : errors = [] → ∃ action, result = .ok action
  error : errors ≠ [] → ∃ e, result = .error e ∧ e.message = joinLines (errors.map (·.message))

theorem ends_ending (s : Settings) (errors : List Error) (status : OperatorStatus) :
    Ends errors (ending s errors status) := by
  cases errors with
  | nil => exact ⟨fun _ => ⟨_, rfl⟩, fun h => absurd rfl h⟩
  | cons e l => exact ⟨fun h => absurd h (List.cons_ne_nil e l), fun _ => ⟨_, rfl, rfl⟩⟩

theorem uses_execute_expects (operator : OperatorResource) (recorded : Option Int) (p : Plan) :
    (execute s operator recorded p).Uses (Call.Expects recorded) :=
  uses_execute_of trivial (fun _ => trivial) (fun _ => trivial) fun _ => rfl

end Workload

namespace Collaborators

open Workload

variable {s : Settings} {σ α : Type} (w : Collaborators s σ)

/-- Every cycle passes on the generation that is on record when it begins. -/
theorem expects_of_mem_cycle {a : σ} {x : Step σ} (hx : x ∈ (cycle s).trace w.answer a) :
    x.call.Expects (recordedGeneration s (w.state a).operator) := by
  have hprepares : (prepare s).Uses (Call.Expects (recordedGeneration s (w.state a).operator)) := by
    refine (uses_prepare s).mono fun c hc => ?_
    rcases hc with hprerequisite | hreading
    · obtain ⟨m, rfl⟩ | ⟨rendered, rfl⟩ := hprerequisite.cases <;> trivial
    · exact hreading.expects
  have hrun : ((prepare s).run w.answer a).1 = w.result (prepare s) a := rfl
  rw [cycle_eq_prepare, Program.trace_bind, List.mem_append, hrun] at hx
  rcases hx with hx | hx
  · exact hprepares.mem_trace w.answer hx
  · cases hready : w.result (prepare s) a with
    | failed | unmanaged =>
      rw [hready] at hx
      exact absurd hx List.not_mem_nil
    | waiting =>
      rw [hready] at hx
      exact ((uses_waitForConfig s).mem_trace w.answer hx).elim Reading.expects Call.IsStatusWrite.expects
    | ready operator changed errors =>
      obtain ⟨hread, -⟩ := w.deployable_of_ready hready
      obtain rfl := w.eq_of_getOperator hread
      rw [hready, resume, Program.trace_bind, List.mem_append] at hx
      rcases hx with hx | hx
      · have hrolls : (rollOut s (w.state a).operator changed (recordedGeneration s (w.state a).operator)).Uses
            (Call.Expects (recordedGeneration s (w.state a).operator)) := by
          rw [rollOut_eq_execute]
          exact .bind (.ask trivial) fun v => uses_execute_expects _ _ _
        exact hrolls.mem_trace w.answer hx
      · exact ((uses_conclude s _ errors _).mem_trace w.answer hx).elim Reading.expects Call.IsStatusWrite.expects

end Collaborators

namespace Recorders

open Workload

variable {s : Settings} {σ : Type} (w : Recorders s σ)

theorem conclude_of_records {operator : OperatorResource} {errors : List Error} {rolled : Except Error Applied}
    {a : σ} (h : w.Records (conclude s operator errors rolled) a) :
    let b := w.state (w.after (conclude s operator errors rolled) a)
    ∃ report : Report, report.applied = rolled.toOption ∧ report.errors = errors ++ errorsOf rolled ∧
      b.operator.spec = (w.state a).operator.spec ∧
      (∃ now, b.operator.statusOrEmpty = report.status s operator now (w.state a).operator.statusOrEmpty) ∧
      w.result (conclude s operator errors rolled) a = ending s report.errors b.operator.statusOrEmpty := by
  have hreads {c : Call} (hc : Collaborators.Reading c) : ¬c.IsStatusWrite := hc.not_isStatusWrite
  have hannounced : w.result (announce s errors rolled) a = (rolled.toOption, errors ++ errorsOf rolled) := by
    cases rolled <;> simp [announce, errorsOf, Except.toOption]
  obtain ⟨-, hrest⟩ :=
    (w.completes_of_records (uses_conclude s operator errors rolled) h).part ((uses_announce s errors rolled).mono
      fun _ => hreads)
  rw [hannounced] at hrest
  obtain ⟨-, hcloses⟩ := hrest.part ((uses_assess s operator _).mono fun _ => hreads)
  have happlied : (w.result (assess s operator (rolled.toOption, errors ++ errorsOf rolled))
      (w.after (announce s errors rolled) a)).applied = rolled.toOption := by
    cases rolled <;> simp [assess, Except.toOption]
  have herrors : (w.result (assess s operator (rolled.toOption, errors ++ errorsOf rolled))
      (w.after (announce s errors rolled) a)).errors = errors ++ errorsOf rolled := by
    cases rolled <;> simp [assess, Except.toOption]
  simp only [conclude, Collaborators.after_bind, Collaborators.result_bind, hannounced]
  rw [← w.state_after_reading (uses_announce s errors rolled) a,
    ← w.state_after_reading (uses_assess s operator (rolled.toOption, errors ++ errorsOf rolled))
      (w.after (announce s errors rolled) a)]
  generalize w.result (assess s operator _) _ = report at happlied herrors hcloses ⊢
  obtain ⟨-, hspec, -, hstored⟩ := w.close_of_completes hcloses
  exact ⟨report, happlied, herrors, hspec, hstored⟩

/-- The deployment that was wanted was applied with this generation in the end, and the books say so. -/
structure Advances (a : σ) (wanted : Deployment) (generation : Int) : Prop where
  /-- The revision on record is the one that was applied. -/
  books : ∃ digests proxy revision,
    wanted = Rollout.deployment s (w.state a).operator.spec.logLevel revision digests proxy ∧
      (w.state (w.after (cycle s) a)).operator.statusOrEmpty.books = ((w.state a).operator.generation,
        (deploymentRecord s generation).set (w.state a).operator.statusOrEmpty.generations, revision)
  recorded : recordedGeneration s (w.state (w.after (cycle s) a)).operator = some generation
  others : (w.state (w.after (cycle s) a)).operator.statusOrEmpty.generations.filter
      (fun r => !r.isAbout group resource s.targetSpace s.deploymentName) =
    (w.state a).operator.statusOrEmpty.generations.filter
      fun r => !r.isAbout group resource s.targetSpace s.deploymentName
  /-- The next cycle passes the generation on, whenever it applies the deployment. -/
  expected : ∀ x ∈ (cycle s).trace w.answer (w.after (cycle s) a), x.call.Expects (some generation)
  /-- And it does apply it, unless it cannot even read the operator resource or something stands in the way. -/
  next : w.FailsOnly (fun c => ¬c.IsRead) (cycle s) (w.after (cycle s) a) →
    (∃ e, .stuck e ∈ w.findings (cycle s) (w.after (cycle s) a)) ∨
      ∃ wanted' force d, .applied wanted' (some generation) force d ∈ w.findings (cycle s) (w.after (cycle s) a)

/-- The cycle that begins here keeps books, by what is found of its steps. -/
structure KeepsBooks (a : σ) : Prop where
  decided : (∃ e, .stuck e ∈ w.findings (cycle s) a) ∨
    ∃ wanted expected force d, .applied wanted expected force d ∈ w.findings (cycle s) a
  stuck : ∀ e, .stuck e ∈ w.findings (cycle s) a →
    (w.state (w.after (cycle s) a)).operator.statusOrEmpty.books = (w.state a).operator.statusOrEmpty.books
  applied : ∀ wanted expected force d generation, .applied wanted expected force d ∈ w.findings (cycle s) a →
    d.metadata.generation = some generation → w.Advances a wanted generation
  degraded : ∃ c, Condition.find? (WorkloadCondition.typeOf s.conditionPrefix WorkloadCondition.workloadSuffix)
      (w.state (w.after (cycle s) a)).operator.statusOrEmpty.conditions = some c ∧
    Degraded (stepErrors (w.state a).operator.spec (w.findings (cycle s) a)) c
  ends : Ends (stepErrors (w.state a).operator.spec (w.findings (cycle s) a)) (w.result (cycle s) a)

theorem read_of_reads {a : σ} (h : w.FailsOnly (fun c => ¬c.IsRead) (cycle s) a) :
    w.result (Program.ask .getOperator) a = .ok (w.state a).operator := by
  rw [cycle_eq_prepare, prepare, Program.bind_assoc, Collaborators.failsOnly_bind] at h
  have hasked : ¬¬Call.IsRead .getOperator := not_not_intro trivial
  obtain ⟨current, hread⟩ := w.exists_read_of_failsOnly hasked h.1
  obtain rfl := w.eq_of_getOperator hread
  exact hread

theorem decided_of_reads {a : σ} (hdeployable : Deployable (w.state a).operator.spec)
    (h : w.FailsOnly (fun c => ¬c.IsRead) (cycle s) a) :
    (∃ e, .stuck e ∈ w.findings (cycle s) a) ∨ ∃ wanted force d,
      .applied wanted (recordedGeneration s (w.state a).operator) force d ∈ w.findings (cycle s) a := by
  obtain ⟨b, refusals, rolled, harrives⟩ := w.exists_arrives (w.read_of_reads h) hdeployable
  obtain ⟨v, p, hfindings, -⟩ := harrives.findings
  rw [hfindings]
  cases rolled with
  | error e => exact .inl ⟨e, List.mem_append_right _ (List.mem_singleton_self _)⟩
  | ok applied => exact .inr ⟨_, _, _, List.mem_append_right _ (List.mem_singleton_self _)⟩

/-- Once the books say so, the next cycle goes by them. -/
theorem advances_of_books {a : σ} {v : ClusterView} {p : Plan} {generation : Int}
    (hdeployable : Deployable (w.state a).operator.spec)
    (hspec : (w.state (w.after (cycle s) a)).operator.spec = (w.state a).operator.spec)
    (hbooks : (w.state (w.after (cycle s) a)).operator.statusOrEmpty.books = ((w.state a).operator.generation,
      (deploymentRecord s generation).set (w.state a).operator.statusOrEmpty.generations, p.revision)) :
    w.Advances a (p.wanted s (w.state a).operator.spec v) generation := by
  have hgenerations : (w.state (w.after (cycle s) a)).operator.statusOrEmpty.generations =
      (deploymentRecord s generation).set (w.state a).operator.statusOrEmpty.generations :=
    congrArg (fun x => x.2.1) hbooks
  have hrecorded : recordedGeneration s (w.state (w.after (cycle s) a)).operator = some generation := by
    rw [recordedGeneration, hgenerations]
    exact GenerationRecord.expected_set (deploymentRecord s generation) _
  refine ⟨⟨_, _, _, rfl, hbooks⟩, hrecorded, ?_, fun x hx => ?_, fun hreads => ?_⟩
  · rw [hgenerations]
    exact GenerationRecord.filter_set (deploymentRecord s generation) _
  · rw [← hrecorded]
    exact w.expects_of_mem_cycle hx
  · rw [← hrecorded]
    exact w.decided_of_reads (by rwa [hspec]) hreads

/-- However the calls of a cycle are answered, it keeps books if its report is stored. -/
theorem keepsBooks_of_records {a : σ} (hdeployable : Deployable (w.state a).operator.spec)
    (h : w.Records (cycle s) a) : w.KeepsBooks a := by
  obtain ⟨b, refusals, rolled, harrives⟩ := w.exists_arrives (w.read_of_reads h.reads) hdeployable
  obtain ⟨v, p, hfindings, hrevision⟩ := harrives.findings
  obtain ⟨report, happlied, herrors, hspec, ⟨now, hstatus⟩, hresult⟩ :=
    w.conclude_of_records (harrives.records h)
  rw [← harrives.after] at hspec hstatus hresult
  rw [harrives.operator] at hspec hstatus
  rw [← harrives.result] at hresult
  have hsteps : stepErrors (w.state a).operator.spec (w.findings (cycle s) a) = report.errors := by
    rw [hfindings, stepErrors_findings, herrors]
  refine ⟨?_, ?_, ?_, ?_, ?_⟩
  · exact (w.decided_of_reads hdeployable h.reads).imp_right
      fun ⟨wanted, force, d, hd⟩ => ⟨wanted, _, force, d, hd⟩
  · intro e he
    rw [hfindings] at he
    cases rolled with
    | ok applied => simp [rolledFindings] at he
    | error e' => rw [hstatus, books_status_of_none happlied]
  · intro wanted expected force d generation hd hgeneration
    rw [hfindings] at hd
    cases rolled with
    | error e => simp [rolledFindings] at hd
    | ok applied =>
      obtain ⟨d', revision⟩ := applied
      obtain ⟨rfl, -, -, rfl⟩ : wanted = p.wanted s (w.state a).operator.spec v ∧
          expected = recordedGeneration s (w.state a).operator ∧ force = p.force ∧ d = d' := by
        simpa [rolledFindings] using hd
      obtain rfl : revision = p.revision := hrevision _ rfl
      refine w.advances_of_books hdeployable hspec ?_
      rw [hstatus]
      exact books_status_of_some happlied hgeneration s _ now _
  · rw [hsteps, hstatus]
    exact exists_degraded report s _ now _
  · rw [hsteps, hresult]
    exact ends_ending s report.errors _

open Simulation

/-- Nothing is there yet, and the service and the config map are refused. -/
def unserved : Steady {} := FailedRollout.refusing [.service, .configMap] Steady.bare

theorem keepsBooks_of_records_unserved : (Steady.appliers {}).KeepsBooks unserved ∧
    ((Steady.appliers {}).state ((Steady.appliers {}).after (cycle {}) unserved)).operator.statusOrEmpty.books =
      (1, [deploymentRecord {} 1], 1) ∧
    (Steady.appliers {}).result (cycle {}) unserved =
      .error (.several ["api error: denied: InternalError", "api error: denied: InternalError"]) :=
  ⟨(Steady.appliers {}).keepsBooks_of_records ⟨rfl, _, rfl, rfl⟩ ⟨by decide +kernel, fun _ => by decide +kernel⟩,
    by decide +kernel, by decide +kernel⟩

end Recorders

end RolloutControl
