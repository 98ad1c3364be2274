import RolloutControl.Proofs.Workload.Success
/-! What the calls of a cycle are answered with, as far as it reports that. An object around the operand may be
refused, and the cycle goes on; then the rollout gets stuck, or a deployment is applied. -/

namespace RolloutControl

inductive Finding
  /-- An object around the operand is not applied. -/
  | refused (e : Error)
  /-- The snapshot is not taken, or the deployment is not applied. -/
  | stuck (e : Error)
  | applied (wanted : Deployment) (expected : Option Int) (force : Bool) (d : Deployment)

namespace Finding

def refusal? : Finding → Option Error
  | .refused e => some e
  | .stuck _ | .applied _ _ _ _ => none

def obstacle? : Finding → Option Error
  | .stuck e => some e
  | .refused _ | .applied _ _ _ _ => none

end Finding

def Call.finding? : (c : Call) → c.Answer → Option Finding
  | .applyManifest _, .error e | .applyConfigMap _, .error e => some (.refused e)
  | .applySecret _, .error e | .applyDeployment _ _ _, .error e => some (.stuck e)
  | .applyDeployment wanted expected force, .ok (d, _) => some (.applied wanted expected force d)
  | _, _ => none

def Call.IsRead : Call → Prop
  | .getOperator => True
  | _ => False

instance : DecidablePred Call.IsRead := fun c =>
  match c with
  | .getOperator => .isTrue trivial
  | .view | .clock | .writeSpec _ _ | .writeStatus _ _ | .applyManifest _ | .applyConfigMap _ => .isFalse id
  | .applySecret _ | .applyDeployment _ _ _ | .probe _ | .publish _ | .sleep _ => .isFalse id

def Call.Tacit (c : Call) : Prop := ∀ x, c.finding? x = none

theorem Collaborators.Reading.tacit {c : Call} (h : Collaborators.Reading c) : c.Tacit := by
  cases c with
  | view | clock | getOperator | probe | publish | sleep => exact fun _ => rfl
  | _ => exact h.elim

theorem Call.IsStatusWrite.tacit {c : Call} (h : c.IsStatusWrite) : c.Tacit := by
  cases c with
  | writeStatus => exact fun _ => rfl
  | _ => exact h.elim

namespace Workload

def errorsOf {α : Type} : Except Error α → List Error
  | .ok _ => []
  | .error e => [e]

theorem snd_added (kind : String) (x : Except Error Bool) (rest : List String × List Error) :
    (added kind x rest).2 = errorsOf x ++ rest.2 := by
  rcases x with e | _ | _ <;> rfl

/-- Everything that went wrong, in the order of the steps. The configuration of the operand comes last of all that is
around it, so if it cannot be had at all that counts before the rollout. -/
def stepErrors (spec : OperatorSpec) (l : List Finding) : List Error :=
  l.filterMap Finding.refusal? ++ renderErrors spec ++ l.filterMap Finding.obstacle?

/-- What is found of a rollout that ends like this. -/
def rolledFindings (wanted : Deployment) (recorded : Option Int) (p : Plan) : Except Error Applied → List Finding
  | .error e => [.stuck e]
  | .ok (d, _) => [.applied wanted recorded p.force d]

theorem refusals_rolledFindings (wanted : Deployment) (recorded : Option Int) (p : Plan)
    (rolled : Except Error Applied) : (rolledFindings wanted recorded p rolled).filterMap Finding.refusal? = [] := by
  cases rolled <;> rfl

theorem obstacles_rolledFindings (wanted : Deployment) (recorded : Option Int) (p : Plan)
    (rolled : Except Error Applied) :
    (rolledFindings wanted recorded p rolled).filterMap Finding.obstacle? = errorsOf rolled := by
  cases rolled <;> rfl

/-- The errors of a cycle in which these objects were refused and the rollout ended like this. -/
theorem stepErrors_findings (spec : OperatorSpec) (refusals : List Error) (wanted : Deployment)
    (recorded : Option Int) (p : Plan) (rolled : Except Error Applied) :
    stepErrors spec (refusals.map .refused ++ rolledFindings wanted recorded p rolled) =
      refusals ++ renderErrors spec ++ errorsOf rolled := by
  have hrefusals : (refusals.map Finding.refused).filterMap Finding.refusal? = refusals := by
    simp [List.filterMap_map, Function.comp_def, Finding.refusal?]
  have hobstacles : (refusals.map Finding.refused).filterMap Finding.obstacle? = [] := by
    simp [List.filterMap_map, Function.comp_def, Finding.obstacle?]
  rw [stepErrors, List.filterMap_append, List.filterMap_append, hrefusals, hobstacles, refusals_rolledFindings,
    obstacles_rolledFindings, List.append_nil, List.nil_append]

theorem IsRollout.cases {s : Settings} {p : Plan} {c : Call} (h : IsRollout s p c) : (∃ x, c = .applySecret x) ∨
    (∃ wanted expected force, c = .applyDeployment wanted expected force) ∨ Collaborators.Reading c := by
  cases c with
  | applySecret x => exact .inl ⟨x, rfl⟩
  | applyDeployment wanted expected force => exact .inr (.inl ⟨wanted, expected, force, rfl⟩)
  | _ => exact .inr (.inr h)

end Workload

namespace Collaborators

open Workload

variable {s : Settings} {σ α β : Type} (w : Collaborators s σ)

def findings (p : Program α) (a : σ) : List Finding :=
  (p.trace w.answer a).filterMap fun x => x.call.finding? x.answer

@[simp] theorem findings_pure (x : α) (a : σ) : w.findings (pure x) a = [] := rfl

@[simp] theorem findings_bind (p : Program α) (f : α → Program β) (a : σ) :
    w.findings (p >>= f) a = w.findings p a ++ w.findings (f (w.result p a)) (w.after p a) := by
  simp [findings, result, after]

theorem findings_ask (c : Call) (a : σ) :
    w.findings (Program.ask c) a = (c.finding? (w.result (Program.ask c) a)).toList := by
  change _ = (c.finding? (w.answer c a).1).toList
  cases h : c.finding? (w.answer c a).1 <;> simp [findings, h]

theorem findings_of_tacit {p : Program α} (hp : p.Uses Call.Tacit) (a : σ) : w.findings p a = [] :=
  List.filterMap_eq_nil_iff.2 fun x hx => hp.mem_trace w.answer hx x.answer

theorem findings_of_reading {p : Program α} (hp : p.Uses Reading) (a : σ) : w.findings p a = [] :=
  w.findings_of_tacit (hp.mono fun _ => Reading.tacit) a

@[simp] theorem findings_view (a : σ) : w.findings view a = [] := rfl

/-- Objects are applied one after the other, and what goes wrong is what is found to be refused, or it is not found
because there was nothing to apply. -/
theorem findings_applyAll {l : List (String × Program (Except Error Bool))}
    (hl : ∀ e ∈ l, ∃ m, e.2 = .ask (.applyManifest m)) (kind : String) {last : Program (Except Error Bool)}
    {unfound : List Error} (hlast : ∀ b, ∃ refusals, w.findings last b = refusals.map .refused ∧
      errorsOf (w.result last b) = refusals ++ unfound) (a : σ) :
    ∃ refusals, w.findings (applyAll (l ++ [(kind, last)])) a = refusals.map .refused ∧
      (w.result (applyAll (l ++ [(kind, last)])) a).2 = refusals ++ unfound := by
  induction l generalizing a with
  | nil =>
    obtain ⟨refusals, hfindings, herrors⟩ := hlast a
    refine ⟨refusals, ?_, ?_⟩
    · simpa [applyAll_cons, applyAll] using hfindings
    · rw [List.nil_append, result_applyAll_cons, snd_added, herrors]
      simp [applyAll]
  | cons e r ih =>
    obtain ⟨⟨m, he⟩, hr⟩ := List.forall_mem_cons.1 hl
    obtain ⟨refusals, hfindings, herrors⟩ := ih hr (w.after e.2 a)
    refine ⟨errorsOf (w.result e.2 a) ++ refusals, ?_, ?_⟩
    · have hfirst : w.findings e.2 a = (errorsOf (w.result e.2 a)).map .refused := by
        rw [he, findings_ask]
        cases w.result (Program.ask (.applyManifest m)) a <;> rfl
      rw [List.cons_append, applyAll_cons, findings_bind, findings_bind, hfirst, hfindings, findings_pure,
        List.append_nil, List.map_append]
    · rw [List.cons_append, result_applyAll_cons, snd_added, herrors, List.append_assoc]

theorem findings_applyConfig (spec : OperatorSpec) (b : σ) :
    ∃ refusals, w.findings (applyConfig s spec) b = refusals.map .refused ∧
      errorsOf (w.result (applyConfig s spec) b) = refusals ++ renderErrors spec := by
  unfold applyConfig renderErrors
  cases Operand.render spec with
  | error e => exact ⟨[], rfl, rfl⟩
  | ok rendered =>
    refine ⟨errorsOf (w.result (Program.ask (.applyConfigMap (Operand.configMap s rendered))) b), ?_, ?_⟩
    · dsimp only
      rw [findings_ask]
      cases w.result (Program.ask (.applyConfigMap (Operand.configMap s rendered))) b <;> rfl
    · exact (List.append_nil _).symm

theorem findings_applyPrerequisites (spec : OperatorSpec) (a : σ) :
    ∃ refusals, w.findings (applyPrerequisites s spec) a = refusals.map .refused ∧
      (w.result (applyPrerequisites s spec) a).2 = refusals ++ renderErrors spec := by
  let steps : List (String × Program (Except Error Bool)) :=
    (Operand.manifests s).map fun m => (m.kind, .ask (.applyManifest m))
  have hmanifests : ∀ e ∈ steps, ∃ m, e.2 = .ask (.applyManifest m) := by
    intro e he
    obtain ⟨m, -, rfl⟩ := List.mem_map.1 he
    exact ⟨m, rfl⟩
  obtain ⟨refusals, hfindings, herrors⟩ :=
    w.findings_applyAll hmanifests "ConfigMap" (w.findings_applyConfig spec) a
  refine ⟨refusals, ?_, ?_⟩
  · simp only [applyPrerequisites, findings_bind, w.findings_of_reading (reading_publishAll _), findings_pure,
      List.append_nil]
    exact hfindings
  · simp only [applyPrerequisites, result_bind, result_pure]
    exact herrors

theorem findings_prepare {a : σ} {operator : OperatorResource}
    (hread : w.result (Program.ask .getOperator) a = .ok operator) (h : Deployable operator.spec) :
    ∃ changed refusals, w.findings (prepare s) a = refusals.map .refused ∧
      w.result (prepare s) a = .ready operator changed (refusals ++ renderErrors operator.spec) := by
  obtain ⟨hresult, -, htrace⟩ := w.prepare_of_deployable hread h
  obtain ⟨refusals, hfindings, herrors⟩ :=
    w.findings_applyPrerequisites operator.spec (w.after (Program.ask .getOperator) a)
  rw [herrors] at hresult
  refine ⟨_, refusals, ?_, hresult⟩
  rw [← hfindings, findings, htrace, List.filterMap_append]
  rfl

theorem findings_takeSnapshot (r : Int) (a : σ) :
    w.findings (takeSnapshot s r) a = (errorsOf (w.result (takeSnapshot s r) a)).map .stuck := by
  simp only [takeSnapshot, findings_bind, findings_view, List.nil_append, result_bind]
  cases Rollout.snapshot? (w.result view a) s r with
  | none => rfl
  | some x =>
    simp only [findings_bind, result_bind]
    rw [findings_ask]
    cases w.result (Program.ask (.applySecret x)) (w.after view a) <;> rfl

theorem findings_applyPlan (operator : OperatorResource) (recorded : Option Int) (p : Plan) (a : σ) :
    w.findings (applyPlan s operator recorded p) a =
      rolledFindings (p.wanted s operator.spec (w.state a).view) recorded p
        ((w.result (applyPlan s operator recorded p) a).map (·, p.revision)) := by
  rw [applyPlan_eq_deploy, findings_bind, findings_view, List.nil_append, result_bind, result_view]
  generalize p.wanted s operator.spec (w.state a).view = wanted
  generalize w.after view a = b
  simp only [deploy, findings_bind, result_bind]
  rw [findings_ask]
  cases w.result (Program.ask (.applyDeployment wanted recorded p.force)) b with
  | error e => rfl
  | ok y =>
    obtain ⟨d, _ | _⟩ := y <;> rfl

theorem findings_carryOut (operator : OperatorResource) (recorded : Option Int) (p : Plan) (a : σ) :
    w.findings (carryOut s operator recorded p (.ok ())) a =
        rolledFindings (p.wanted s operator.spec (w.state a).view) recorded p
          (w.result (carryOut s operator recorded p (.ok ())) a) ∧
      ∀ applied, w.result (carryOut s operator recorded p (.ok ())) a = .ok applied → applied.2 = p.revision := by
  have hplan := w.findings_applyPlan operator recorded p a
  simp only [carryOut, findings_bind, result_bind, hplan]
  cases w.result (applyPlan s operator recorded p) a with
  | error e =>
    refine ⟨rfl, fun _ h => ?_⟩
    cases h
  | ok d =>
    refine ⟨rfl, fun applied h => ?_⟩
    obtain rfl := Except.ok.inj h
    rfl

/-- Either something stands in the way of a plan, or its deployment is applied. -/
theorem findings_execute (operator : OperatorResource) (recorded : Option Int) (p : Plan) (a : σ) :
    ∃ v, w.findings (execute s operator recorded p) a = rolledFindings (p.wanted s operator.spec v) recorded p
        (w.result (execute s operator recorded p) a) ∧
      ∀ applied, w.result (execute s operator recorded p) a = .ok applied → applied.2 = p.revision := by
  unfold execute
  split
  · exact ⟨_, w.findings_carryOut operator recorded p a⟩
  · have hsnapshot := w.findings_takeSnapshot p.revision a
    simp only [findings_bind, result_bind, hsnapshot]
    cases w.result (takeSnapshot s p.revision) a with
    | error e =>
      refine ⟨(w.state a).view, rfl, fun _ h => ?_⟩
      cases h
    | ok u => exact ⟨_, w.findings_carryOut operator recorded p _⟩

theorem findings_rollOut (operator : OperatorResource) (changed : Bool) (recorded : Option Int) (a : σ) :
    ∃ v p, w.findings (rollOut s operator changed recorded) a = rolledFindings (p.wanted s operator.spec v) recorded p
        (w.result (rollOut s operator changed recorded) a) ∧
      ∀ applied, w.result (rollOut s operator changed recorded) a = .ok applied → applied.2 = p.revision := by
  simp only [rollOut_eq_execute, findings_bind, findings_view, List.nil_append, result_bind]
  obtain ⟨v, h⟩ := w.findings_execute operator recorded (plan (w.result view a) s operator changed) (w.after view a)
  exact ⟨v, _, h⟩

theorem state_operator_of_rollout {p : Plan} {c : Call} (hc : IsRollout s p c) (b : σ) :
    (w.state (w.answer c b).2).operator = (w.state b).operator := by
  have hallowed := w.allowed c b
  rcases hc.cases with ⟨x, rfl⟩ | ⟨wanted, expected, force, rfl⟩ | hreading
  · generalize (w.answer (.applySecret x) b).1 = y at hallowed
    cases y with
    | error e => exact congrArg ClusterState.operator hallowed
    | ok changed =>
      obtain ⟨m, hstate, -⟩ := hallowed
      rw [hstate]
  · generalize (w.answer (.applyDeployment wanted expected force) b).1 = y at hallowed
    cases y with
    | error e => exact congrArg ClusterState.operator hallowed
    | ok applied =>
      obtain ⟨m, hstate, -⟩ := hallowed
      rw [hstate]
  · rw [w.state_reading hreading]

theorem rollOut_keeps_operator (operator : OperatorResource) (changed : Bool) (recorded : Option Int) (a : σ) :
    (w.state (w.after (rollOut s operator changed recorded) a)).operator = (w.state a).operator := by
  rw [rollOut_eq_execute, after_bind]
  generalize plan (w.result view a) s operator changed = p
  rw [← w.state_after_view a]
  generalize w.after view a = b
  exact (uses_execute s operator recorded p).run_keeps w.answer (fun b => (w.state b).operator)
    (fun c b hc => w.state_operator_of_rollout hc b) b

theorem findings_conclude (operator : OperatorResource) (errors : List Error) (rolled : Except Error Applied)
    (a : σ) : w.findings (conclude s operator errors rolled) a = [] :=
  w.findings_of_tacit ((uses_conclude s operator errors rolled).mono fun _ hc =>
    hc.elim Reading.tacit Call.IsStatusWrite.tacit) a

/-- The report of the program is stored: the operator resource can be read whenever it is asked for, and if the status
is written at all, one of its writes is answered without an error. -/
structure Records (p : Program α) (a : σ) : Prop where
  reads : w.FailsOnly (fun c => ¬c.IsRead) p a
  writes : w.WritesStatus p a → ∃ x ∈ p.trace w.answer a, x.call.IsStatusWrite ∧ ¬x.call.Failed x.answer

variable {w} in
theorem Records.rest {p : Program α} {f : α → Program β} {a : σ} (h : w.Records (p >>= f) a)
    (hp : p.Uses fun c => ¬c.IsStatusWrite) : w.Records (f (w.result p a)) (w.after p a) where
  reads := ((w.failsOnly_bind p f a).1 h.reads).2
  writes hwrites := by
    obtain ⟨x, hx, hwrite⟩ := h.writes ((w.writesStatus_bind p f a).2 (.inr hwrites))
    rw [Program.trace_bind, List.mem_append] at hx
    rcases hx with hx | hx
    · exact absurd hwrite.1 (hp.mem_trace w.answer hx)
    · exact ⟨x, hx, hwrite⟩

/-- A program that only reads and reports completes if its report is stored. -/
theorem completes_of_records {p : Program α} {a : σ} (hp : p.Uses fun c => Reading c ∨ c.IsStatusWrite)
    (h : w.Records p a) : w.Completes p a where
  fails x hx hfailed := by
    have hkind := hp.mem_trace w.answer hx
    have hread := h.reads x hx hfailed
    obtain ⟨c, answer, before, after⟩ := x
    cases c with
    | getOperator => exact absurd trivial hread
    | probe => exact .inl trivial
    | writeStatus => exact .inr trivial
    | view | clock | publish | sleep => exact hfailed.elim
    | _ => exact (hkind.elim id id).elim
  records := h.writes

/-- The cycle that begins here comes to its report there, when these objects have been refused and the rollout has
ended like this. -/
structure Arrives (a b : σ) (refusals : List Error) (rolled : Except Error Applied) : Prop where
  operator : (w.state b).operator = (w.state a).operator
  findings : ∃ v p, w.findings (cycle s) a = refusals.map .refused ++
      rolledFindings (p.wanted s (w.state a).operator.spec v) (recordedGeneration s (w.state a).operator) p rolled ∧
    ∀ applied, rolled = .ok applied → applied.2 = p.revision
  result : w.result (cycle s) a = w.result (conclude s (w.state a).operator
    (refusals ++ renderErrors (w.state a).operator.spec) rolled) b
  after : w.after (cycle s) a = w.after (conclude s (w.state a).operator
    (refusals ++ renderErrors (w.state a).operator.spec) rolled) b
  records : w.Records (cycle s) a → w.Records (conclude s (w.state a).operator
    (refusals ++ renderErrors (w.state a).operator.spec) rolled) b

/-- Every cycle with something to roll out comes to its report when the rollout has ended, whatever fails on the way. -/
theorem arrives_rollOut {a : σ} (hread : w.result (Program.ask .getOperator) a = .ok (w.state a).operator)
    (h : Deployable (w.state a).operator.spec) : ∃ changed refusals,
    let rolls := rollOut s (w.state a).operator changed (recordedGeneration s (w.state a).operator)
    w.result (prepare s) a =
        .ready (w.state a).operator changed (refusals ++ renderErrors (w.state a).operator.spec) ∧
      w.Arrives a (w.after rolls (w.after (prepare s) a)) refusals (w.result rolls (w.after (prepare s) a)) := by
  obtain ⟨changed, refusals, hfindings, hready⟩ := w.findings_prepare hread h
  have hprepared : (w.state (w.after (prepare s) a)).operator = (w.state a).operator := w.prepare_keeps_operator a
  generalize hoperator : (w.state a).operator = operator at *
  have hrest : cycle s = prepare s >>= resume s := cycle_eq_prepare s
  obtain ⟨v, p, hrolled, hrevision⟩ :=
    w.findings_rollOut operator changed (recordedGeneration s operator) (w.after (prepare s) a)
  have hkept := w.rollOut_keeps_operator operator changed (recordedGeneration s operator) (w.after (prepare s) a)
  refine ⟨changed, refusals, hready,
    ⟨hkept.trans (hprepared.trans hoperator.symm), ⟨v, p, ?_, hrevision⟩, ?_, ?_, ?_⟩⟩
  · rw [hrest, findings_bind, hready, resume, findings_bind, hfindings, hrolled, findings_conclude, List.append_nil,
      hoperator]
  · rw [hrest, result_bind, hready, resume, result_bind, hoperator]
  · rw [hrest, after_bind, hready, resume, after_bind, hoperator]
  · intro hrecords
    rw [hrest] at hrecords
    have hresumes := hrecords.rest (uses_prepare_unwritten s)
    rw [hready, resume] at hresumes
    rw [hoperator]
    exact hresumes.rest (uses_rollOut_unwritten s operator changed _)

theorem exists_arrives {a : σ} (hread : w.result (Program.ask .getOperator) a = .ok (w.state a).operator)
    (h : Deployable (w.state a).operator.spec) : ∃ b refusals rolled, w.Arrives a b refusals rolled := by
  obtain ⟨changed, refusals, -, harrives⟩ := w.arrives_rollOut hread h
  exact ⟨_, refusals, _, harrives⟩

end Collaborators

end RolloutControl
