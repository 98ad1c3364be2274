import Mathlib.Data.List.Nodup
import RolloutControl.Proofs.Effect.Update
import RolloutControl.Workload.Cycle
/-! What a cycle does before it rolls out. It reads the operator resource, and if there is something to
roll out it applies the objects around the operand, every one of them whatever becomes of the others. -/

namespace RolloutControl

/-- Whether one call may apply another object in the place of the one that the other call applies. -/
def Call.Displaces : Call → Call → Prop
  | .applyManifest m, .applyManifest n => m.kind = n.kind ∧ m ≠ n
  | .applyConfigMap cm, .applyConfigMap other => cm.metadata.anyName = other.metadata.anyName ∧ cm ≠ other
  | _, _ => False

theorem Collaborators.Reading.not_displaces {c c' : Call} (h : Collaborators.Reading c) : ¬c.Displaces c' := by
  cases c with
  | applyManifest | applyConfigMap => exact h.elim
  | _ => exact id

namespace Workload

def prerequisites (s : Settings) (spec : OperatorSpec) : List Call :=
  (Operand.manifests s).map .applyManifest ++
    match Operand.render spec with
    | .ok rendered => [.applyConfigMap (Operand.configMap s rendered)]
    | .error _ => []

/-- A call that applies one of the objects around the operand, for some spec. -/
def IsPrerequisite (s : Settings) (c : Call) : Prop := ∃ spec, c ∈ prerequisites s spec

theorem mem_prerequisites {s : Settings} {spec : OperatorSpec} {c : Call} :
    c ∈ prerequisites s spec ↔ (∃ m ∈ Operand.manifests s, c = .applyManifest m) ∨
      ∃ rendered, Operand.render spec = .ok rendered ∧ c = .applyConfigMap (Operand.configMap s rendered) := by
  unfold prerequisites
  cases Operand.render spec <;> simp [eq_comm]

theorem IsPrerequisite.cases {s : Settings} {c : Call} (h : IsPrerequisite s c) :
    (∃ m, c = .applyManifest m) ∨ ∃ rendered, c = .applyConfigMap (Operand.configMap s rendered) := by
  obtain ⟨spec, hc⟩ := h
  rcases mem_prerequisites.1 hc with ⟨m, -, rfl⟩ | ⟨rendered, -, rfl⟩
  · exact .inl ⟨m, rfl⟩
  · exact .inr ⟨rendered, rfl⟩

theorem manifest_eq_of_kind {s : Settings} {m n : Manifest} (hm : m ∈ Operand.manifests s)
    (hn : n ∈ Operand.manifests s) (h : m.kind = n.kind) : m = n := by
  have hkinds : ((Operand.manifests s).map Manifest.kind).Nodup :=
    (by decide : ["Namespace", "ServiceAccount", "Service"].Nodup)
  exact List.inj_on_of_nodup_map hkinds hm hn h

theorem not_displaces_of_mem {s : Settings} {spec : OperatorSpec} {c c' : Call}
    (hc : c ∈ prerequisites s spec) (hc' : c' ∈ prerequisites s spec) : ¬c'.Displaces c := by
  rcases mem_prerequisites.1 hc with ⟨m, hm, rfl⟩ | ⟨rendered, hrender, rfl⟩ <;>
    rcases mem_prerequisites.1 hc' with ⟨n, hn, rfl⟩ | ⟨rendered', hrender', rfl⟩
  · exact fun h => h.2 (manifest_eq_of_kind hn hm h.1)
  · exact id
  · exact id
  · obtain rfl := Except.ok.inj (hrender.symm.trans hrender')
    exact fun h => h.2 rfl

/-- What one more object adds to what has changed and what went wrong. -/
def added (kind : String) (x : Except Error Bool) (rest : List String × List Error) :
    List String × List Error :=
  match x with
  | .ok true => (kind :: rest.1, rest.2)
  | .ok false => rest
  | .error e => (rest.1, e :: rest.2)

theorem applyAll_cons (e : String × Program (Except Error Bool))
    (r : List (String × Program (Except Error Bool))) :
    applyAll (e :: r) = e.2 >>= fun x => applyAll r >>= fun rest => pure (added e.1 x rest) := by
  refine congrArg (e.2 >>= ·) (funext fun x => congrArg (applyAll r >>= ·) (funext fun rest => ?_))
  rcases x with _ | _ | _ <;> rfl

theorem uses_applyAll {kind : Call → Prop} {l : List (String × Program (Except Error Bool))}
    (h : ∀ e ∈ l, e.2.Uses kind) : (applyAll l).Uses kind := by
  induction l with
  | nil => exact .pure _
  | cons e r ih =>
    obtain ⟨he, hr⟩ := List.forall_mem_cons.1 h
    rw [applyAll_cons]
    exact .bind he fun x => .bind (ih hr) fun rest => .pure _

def items (s : Settings) (spec : OperatorSpec) : List (String × Program (Except Error Bool)) :=
  (Operand.manifests s).map (fun m => (m.kind, .ask (.applyManifest m))) ++ [("ConfigMap", applyConfig s spec)]

theorem item_cases {s : Settings} {spec : OperatorSpec} {e : String × Program (Except Error Bool)}
    (h : e ∈ items s spec) : (∃ m ∈ Operand.manifests s, e.2 = .ask (.applyManifest m)) ∨
      (∃ rendered, Operand.render spec = .ok rendered ∧
        e.2 = .ask (.applyConfigMap (Operand.configMap s rendered))) ∨
      (∃ x, Operand.render spec = .error x ∧ e.2 = pure (.error x)) := by
  rcases List.mem_append.1 h with h | h
  · obtain ⟨m, hm, rfl⟩ := List.mem_map.1 h
    exact .inl ⟨m, hm, rfl⟩
  · obtain rfl := List.mem_singleton.1 h
    refine .inr ?_
    unfold applyConfig
    cases hrender : Operand.render spec with
    | ok rendered => exact .inl ⟨rendered, rfl, rfl⟩
    | error x => exact .inr ⟨x, rfl, rfl⟩

theorem uses_applyPrerequisites_of {kind : Call → Prop} (s : Settings) {spec : OperatorSpec}
    (hpublish : ∀ e, kind (.publish e)) (h : ∀ c ∈ prerequisites s spec, kind c) :
    (applyPrerequisites s spec).Uses kind := by
  refine .bind (uses_applyAll (l := items s spec) fun e he => ?_) fun x =>
    .bind (Program.uses_publishAll fun e _ => hpublish e) fun _ => .pure _
  rcases item_cases he with ⟨m, hm, he⟩ | ⟨rendered, hrender, he⟩ | ⟨x, -, he⟩
  · exact he ▸ .ask (h _ (mem_prerequisites.2 (.inl ⟨m, hm, rfl⟩)))
  · exact he ▸ .ask (h _ (mem_prerequisites.2 (.inr ⟨rendered, hrender, rfl⟩)))
  · exact he ▸ .pure _

theorem uses_applyPrerequisites (s : Settings) (spec : OperatorSpec) :
    (applyPrerequisites s spec).Uses fun c => c ∈ prerequisites s spec ∨ Collaborators.Reading c :=
  uses_applyPrerequisites_of s (fun _ => .inr trivial) fun _ => .inl

theorem uses_availability (s : Settings) (current : Option Deployment) :
    (availability s current).Uses Collaborators.Reading := by
  unfold availability
  split
  · exact .pure _
  · split
    · exact .pure _
    · refine .bind (.ask trivial) fun v => ?_
      split
      · exact .pure _
      · exact .bind (Collaborators.reading_probeAll _) fun _ => .pure _

/-- How far a cycle gets before it rolls out. -/
inductive Preparation
  | failed (e : Error)
  | unmanaged
  | waiting
  /-- The operator resource, whether an object around the operand has changed, and what went wrong. -/
  | ready (operator : OperatorResource) (changed : Bool) (errors : List Error)
deriving DecidableEq

/-- What follows once the operator resource has been asked for. -/
def prepareWith (s : Settings) : Except Error OperatorResource → Program Preparation
  | .error e => pure (.failed e)
  | .ok operator =>
    if operator.spec.managementState ≠ .managed then pure .unmanaged
    else
      match Document.ofJson operator.spec.observedConfig with
      | .error e => pure (.failed e)
      | .ok observed =>
        if observed.isEmpty then pure .waiting
        else do
          let (changed, errors) ← applyPrerequisites s operator.spec
          pure (.ready operator changed errors)

def prepare (s : Settings) : Program Preparation := do prepareWith s (← Program.ask .getOperator)

def recordedGeneration (s : Settings) (operator : OperatorResource) : Option Int :=
  GenerationRecord.expected operator.statusOrEmpty.generations group resource s.targetSpace s.deploymentName

/-- What has been applied, if anything, and all that went wrong. A rollout that fails is made known. -/
def announce (s : Settings) (errors : List Error) :
    Except Error Applied → Program (Option Applied × List Error)
  | .ok applied => pure (some applied, errors)
  | .error e => do
    publish (.warning "DeploymentUpdateFailed"
      ("Failed to apply deployment " ++ s.deploymentName ++ ": " ++ e.message))
    pure (none, errors ++ [e])

/-- What is found out about the operand. -/
def assess (s : Settings) (operator : OperatorResource) (outcome : Option Applied × List Error) :
    Program Report := do
  let (applied, errors) := outcome
  let recorded := (applied.bind (·.1.metadata.generation)) <|> recordedGeneration s operator
  let current ← match applied with
    | some (d, _) => pure (some d)
    | none => do pure ((← view).deployment? s)
  let problem ← availability s current
  pure { applied, current, recorded, problem, errors }

def close (s : Settings) (operator : OperatorResource) (report : Report) :
    Program (Except Error Action) := do
  match ← updateStatus (report.status s operator) with
  | .error e => pure (.error (.several ((report.errors ++ [e]).map (·.message))))
  | .ok (status, _) =>
    if !report.errors.isEmpty then pure (.error (.several (report.errors.map (·.message))))
    else pure (.ok (if isSettled s status then .awaitChange else .requeueRateLimited))

/-- What follows a rollout. -/
def conclude (s : Settings) (operator : OperatorResource) (errors : List Error)
    (rolled : Except Error Applied) : Program (Except Error Action) := do
  close s operator (← assess s operator (← announce s errors rolled))

def resume (s : Settings) : Preparation → Program (Except Error Action)
  | .failed e => pure (.error e)
  | .unmanaged => pure (.ok .awaitChange)
  | .waiting => waitForConfig s
  | .ready operator changed errors =>
    rollOut s operator changed (recordedGeneration s operator) >>= conclude s operator errors

theorem cycle_eq_prepare (s : Settings) : cycle s = prepare s >>= resume s := by
  rw [prepare, Program.bind_assoc]
  refine congrArg (Program.ask .getOperator >>= ·) (funext fun x => ?_)
  cases x with
  | error e => rfl
  | ok operator =>
    unfold prepareWith
    dsimp only
    by_cases hmanaged : operator.spec.managementState ≠ .managed
    · rw [if_pos hmanaged, if_pos hmanaged]
      rfl
    · rw [if_neg hmanaged, if_neg hmanaged]
      cases Document.ofJson operator.spec.observedConfig with
      | error e => rfl
      | ok observed =>
        dsimp only
        split
        · rfl
        · rw [examine, Program.bind_assoc, Program.bind_assoc]
          refine congrArg (applyPrerequisites s operator.spec >>= ·) (funext fun x => ?_)
          refine (Program.bind_assoc (rollOut s operator x.1 (recordedGeneration s operator)) _ _).trans ?_
          refine congrArg (rollOut s operator x.1 _ >>= ·) (funext fun rolled => ?_)
          cases rolled <;> rfl

theorem uses_prepare_of {kind : Call → Prop} (s : Settings) (hread : kind .getOperator)
    (hpublish : ∀ e, kind (.publish e)) (h : ∀ c, IsPrerequisite s c → kind c) : (prepare s).Uses kind := by
  refine .bind (.ask hread) fun x => ?_
  cases x with
  | error e => exact .pure _
  | ok operator =>
    unfold prepareWith
    dsimp only
    split
    · exact .pure _
    · split
      · exact .pure _
      · split
        · exact .pure _
        · exact .bind (uses_applyPrerequisites_of s hpublish fun c hc => h c ⟨_, hc⟩) fun _ => .pure _

theorem uses_prepare (s : Settings) :
    (prepare s).Uses fun c => IsPrerequisite s c ∨ Collaborators.Reading c :=
  uses_prepare_of s (.inr trivial) (fun _ => .inr trivial) fun _ => .inl

/-- There is something to roll out. -/
structure Deployable (spec : OperatorSpec) : Prop where
  managed : spec.managementState = .managed
  observed : ∃ d, Document.ofJson spec.observedConfig = .ok d ∧ d.isEmpty = false

theorem prepareWith_deployable (s : Settings) {operator : OperatorResource} (h : Deployable operator.spec) :
    prepareWith s (.ok operator) =
      applyPrerequisites s operator.spec >>= fun y => pure (.ready operator y.1 y.2) := by
  obtain ⟨hmanaged, d, hd, hempty⟩ := h
  simp only [prepareWith, hmanaged, hd, hempty]
  rfl

end Workload

namespace Collaborators

open Workload

variable {s : Settings} {σ α : Type} (w : Collaborators s σ)

/-- A call is made and fails. -/
def Refuses (p : Program α) (a : σ) (c : Call) : Prop :=
  ∃ x ∈ p.trace w.answer a, x.call = c ∧ x.call.Failed x.answer

/-- A call is made and changes an object. -/
def Alters (p : Program α) (a : σ) (c : Call) : Prop :=
  ∃ x ∈ p.trace w.answer a, x.call = c ∧ x.call.Changed x.answer

theorem exists_alters_iff {p : Program α} {a : σ} :
    (∃ c, w.Alters p a c) ↔ ∃ x ∈ p.trace w.answer a, x.call.Changed x.answer :=
  ⟨fun ⟨_, x, hx, _, hchanged⟩ => ⟨x, hx, hchanged⟩, fun ⟨x, hx, hchanged⟩ => ⟨x.call, x, hx, rfl, hchanged⟩⟩

theorem result_applyAll_cons (e : String × Program (Except Error Bool))
    (r : List (String × Program (Except Error Bool))) (a : σ) :
    w.result (applyAll (e :: r)) a = added e.1 (w.result e.2 a) (w.result (applyAll r) (w.after e.2 a)) := by
  rw [applyAll_cons, result_bind, result_bind, result_pure]

theorem trace_applyAll_cons (e : String × Program (Except Error Bool))
    (r : List (String × Program (Except Error Bool))) (a : σ) :
    (applyAll (e :: r)).trace w.answer a =
      e.2.trace w.answer a ++ (applyAll r).trace w.answer (w.after e.2 a) := by
  rw [applyAll_cons, Program.trace_bind, Program.trace_bind, Program.trace_pure, List.append_nil]
  rfl

theorem exists_step_ask (c : Call) (a : σ) (q : Step σ → Prop) :
    (∃ x ∈ (Program.ask c).trace w.answer a, q x) ↔ q ⟨c, (w.answer c a).1, a, (w.answer c a).2⟩ := by
  simp

theorem item_alters {spec : OperatorSpec} {e : String × Program (Except Error Bool)}
    (h : e ∈ items s spec) (a : σ) :
    (∃ x ∈ e.2.trace w.answer a, x.call.Changed x.answer) ↔ w.result e.2 a = .ok true := by
  rcases item_cases h with ⟨m, -, he⟩ | ⟨rendered, -, he⟩ | ⟨x, -, he⟩
  · rw [he]
    exact (w.exists_step_ask (.applyManifest m) a fun x => x.call.Changed x.answer).trans
      (Call.changed_applyManifest m _)
  · rw [he]
    exact (w.exists_step_ask (.applyConfigMap _) a fun x => x.call.Changed x.answer).trans
      (Call.changed_applyConfigMap _ _)
  · rw [he]
    simp

theorem applyAll_alters {spec : OperatorSpec} {l : List (String × Program (Except Error Bool))}
    (h : ∀ e ∈ l, e ∈ items s spec) (a : σ) :
    (∃ x ∈ (applyAll l).trace w.answer a, x.call.Changed x.answer) ↔ (w.result (applyAll l) a).1 ≠ [] := by
  induction l generalizing a with
  | nil => simp [applyAll]
  | cons e r ih =>
    obtain ⟨he, hr⟩ := List.forall_mem_cons.1 h
    have hfirst := w.item_alters he a
    have hrest := ih hr (w.after e.2 a)
    rw [trace_applyAll_cons, result_applyAll_cons]
    simp only [List.mem_append, or_and_right, exists_or, hfirst, hrest]
    rcases w.result e.2 a with x | _ | _ <;> simp [added]

/-- Every object is applied, whatever becomes of the others. -/
theorem applyAll_calls {l : List (String × Program (Except Error Bool))} {e : String × Program (Except Error Bool)}
    (he : e ∈ l) (a : σ) : ∃ b, ∀ x ∈ e.2.trace w.answer b, x ∈ (applyAll l).trace w.answer a := by
  induction l generalizing a with
  | nil => simp at he
  | cons d r ih =>
    rw [trace_applyAll_cons]
    rcases List.mem_cons.1 he with rfl | he
    · exact ⟨a, fun x hx => List.mem_append_left _ hx⟩
    · obtain ⟨b, hb⟩ := ih he (w.after d.2 a)
      exact ⟨b, fun x hx => List.mem_append_right _ (hb x hx)⟩

theorem applyPrerequisites_alters (spec : OperatorSpec) (a : σ) :
    (∃ x ∈ (applyPrerequisites s spec).trace w.answer a, x.call.Changed x.answer) ↔
      (w.result (applyPrerequisites s spec) a).1 = true := by
  have happlied := w.applyAll_alters (fun e (he : e ∈ items s spec) => he) a
  have hpublished (l : List Event) (b : σ) :
      ¬∃ x ∈ (publishAll l).trace w.answer b, x.call.Changed x.answer := by
    rintro ⟨x, hx, hchanged⟩
    exact Reading.not_changed ((reading_publishAll l).mem_trace w.answer hx) hchanged
  simp only [applyPrerequisites, Program.trace_bind, Program.trace_pure, List.append_nil, List.mem_append,
    or_and_right, exists_or, hpublished, or_false, result_bind, result_pure]
  change (∃ x ∈ (applyAll (items s spec)).trace w.answer a, x.call.Changed x.answer) ↔
    (!(w.result (applyAll (items s spec)) a).1.isEmpty) = true
  rw [happlied]
  simp

/-- Every object of the spec is applied. -/
theorem applyPrerequisites_calls {spec : OperatorSpec} {c : Call} (hc : c ∈ prerequisites s spec) (a : σ) :
    ∃ x ∈ (applyPrerequisites s spec).trace w.answer a, x.call = c := by
  have hfound {e : String × Program (Except Error Bool)} (he : e ∈ items s spec)
      (hcall : ∀ b, ∃ x ∈ e.2.trace w.answer b, x.call = c) :
      ∃ x ∈ (applyPrerequisites s spec).trace w.answer a, x.call = c := by
    obtain ⟨b, hb⟩ := w.applyAll_calls he a
    obtain ⟨x, hx, hxc⟩ := hcall b
    refine ⟨x, ?_, hxc⟩
    rw [applyPrerequisites, Program.trace_bind]
    exact List.mem_append_left _ (hb x hx)
  rcases mem_prerequisites.1 hc with ⟨m, hm, rfl⟩ | ⟨rendered, hrender, rfl⟩
  · have he : (m.kind, .ask (.applyManifest m)) ∈ items s spec :=
      List.mem_append_left _ (List.mem_map_of_mem hm)
    exact hfound he fun b => (w.exists_step_ask (.applyManifest m) b _).2 rfl
  · have he : ("ConfigMap", applyConfig s spec) ∈ items s spec :=
      List.mem_append_right _ (List.mem_singleton_self _)
    refine hfound he fun b => ?_
    simp only [applyConfig, hrender]
    exact (w.exists_step_ask (.applyConfigMap _) b _).2 rfl

theorem prepare_keeps_operator (a : σ) :
    (w.state (w.after (prepare s) a)).operator = (w.state a).operator := by
  refine (uses_prepare s).run_keeps w.answer (fun b => (w.state b).operator) (fun c b hc => ?_) a
  rcases hc with hprerequisite | hreading
  · have hallowed := w.allowed c b
    obtain ⟨m, rfl⟩ | ⟨rendered, rfl⟩ := hprerequisite.cases
    · exact congrArg ClusterState.operator hallowed
    · cases hx : (w.answer (.applyConfigMap (Operand.configMap s rendered)) b).1 <;>
        simp only [Call.Allows, hx] at hallowed
      · rw [hallowed]
      · obtain ⟨m, hstate⟩ := hallowed
        rw [hstate]
  · rw [w.state_reading hreading]

theorem prepare_of_deployable {a : σ} {operator : OperatorResource}
    (hread : w.result (Program.ask .getOperator) a = .ok operator) (h : Deployable operator.spec) :
    let b := w.after (Program.ask .getOperator) a
    let applied := w.result (applyPrerequisites s operator.spec) b
    w.result (prepare s) a = .ready operator applied.1 applied.2 ∧
      w.after (prepare s) a = w.after (applyPrerequisites s operator.spec) b ∧
      (prepare s).trace w.answer a = (Program.ask .getOperator).trace w.answer a ++
        (applyPrerequisites s operator.spec).trace w.answer b := by
  have hrun : ((Program.ask .getOperator).run w.answer a).1 = .ok operator := hread
  simp only [prepare, result_bind, after_bind, Program.trace_bind, hread, hrun, prepareWith_deployable s h,
    result_pure, after_pure, Program.trace_pure, List.append_nil, true_and]
  rfl

theorem deployable_of_ready {a : σ} {operator : OperatorResource} {changed : Bool} {errors : List Error}
    (h : w.result (prepare s) a = .ready operator changed errors) :
    w.result (Program.ask .getOperator) a = .ok operator ∧ Deployable operator.spec := by
  simp only [prepare, result_bind] at h
  cases hx : w.result (Program.ask .getOperator) a with
  | error e => simp [hx, prepareWith] at h
  | ok current =>
    rw [hx] at h
    have hdeployable : Deployable current.spec := by
      simp only [prepareWith] at h
      split at h
      · simp at h
      · next hmanaged =>
        split at h
        · simp at h
        · next d hd =>
          split at h
          · simp at h
          · next hempty => exact ⟨Decidable.of_not_not hmanaged, d, hd, by simpa using hempty⟩
    rw [prepareWith_deployable s hdeployable, result_bind, result_pure] at h
    obtain ⟨rfl, -⟩ := Preparation.ready.inj h
    exact ⟨rfl, hdeployable⟩

theorem mem_prerequisites_of_alters {spec : OperatorSpec} {a : σ} {c : Call}
    (h : w.Alters (applyPrerequisites s spec) a c) : c ∈ prerequisites s spec := by
  obtain ⟨x, hx, rfl, hchanged⟩ := h
  exact ((uses_applyPrerequisites s spec).mem_trace w.answer hx).resolve_right
    fun hreading => hreading.not_changed hchanged

section Reads
variable {a : σ} {operator : OperatorResource} {c : Call}
  (hread : w.result (Program.ask .getOperator) a = .ok operator) (h : Deployable operator.spec)

include hread h

theorem alters_prepare : w.Alters (prepare s) a c ↔
    w.Alters (applyPrerequisites s operator.spec) (w.after (Program.ask .getOperator) a) c := by
  obtain ⟨-, -, htrace⟩ := w.prepare_of_deployable hread h
  simp only [Alters, htrace, List.mem_append, or_and_right, exists_or]
  refine or_iff_right ?_
  rintro ⟨x, hx, -, hchanged⟩
  obtain rfl := List.mem_singleton.1 hx
  exact Reading.not_changed (c := .getOperator) trivial hchanged

theorem refuses_prepare
    (hc : w.Refuses (applyPrerequisites s operator.spec) (w.after (Program.ask .getOperator) a) c) :
    w.Refuses (prepare s) a c := by
  obtain ⟨x, hx, hcall⟩ := hc
  obtain ⟨-, -, htrace⟩ := w.prepare_of_deployable hread h
  exact ⟨x, htrace ▸ List.mem_append_right _ hx, hcall⟩

end Reads

theorem changed_iff_alters {a : σ} {operator : OperatorResource} {changed : Bool} {errors : List Error}
    (h : w.result (prepare s) a = .ready operator changed errors) :
    changed = true ↔ ∃ c, w.Alters (prepare s) a c := by
  obtain ⟨hread, hdeployable⟩ := w.deployable_of_ready h
  obtain ⟨hresult, -, -⟩ := w.prepare_of_deployable hread hdeployable
  obtain ⟨-, rfl, -⟩ := Preparation.ready.inj (h.symm.trans hresult)
  simp only [w.alters_prepare hread hdeployable]
  rw [← w.applyPrerequisites_alters, w.exists_alters_iff]

end Collaborators

/-- Whoever answers the operator and applies the objects around the operand. An object that has been applied is
in place until another one is applied in its stead, and applying it once more changes nothing. -/
structure Appliers (s : Settings) (σ : Type) extends Recorders s σ where
  inPlace : Call → σ → Prop
  applied : ∀ c x, Workload.IsPrerequisite s c → ¬c.Failed (answer c x).1 → inPlace c (answer c x).2
  kept : ∀ c c' x, Workload.IsPrerequisite s c → inPlace c x → ¬c'.Displaces c → inPlace c (answer c' x).2
  settled : ∀ c x, Workload.IsPrerequisite s c → inPlace c x → ¬c.Changed (answer c x).1
  unwritten : ∀ c x, Workload.IsPrerequisite s c → ¬c.Changed (answer c x).1 →
    state (answer c x).2 = state x

end RolloutControl
