import RolloutControl.Proofs.Workload.Forcing
import RolloutControl.Proofs.Workload.Keeping
/-! A cycle that completes: no call fails but those to discovery, and writes of the status that are repeated until
one is stored. It brings the deployment of its plan about, keeps everything in place, and stores the status that
its report asks for. -/

namespace RolloutControl

namespace Workload

def renderErrors (spec : OperatorSpec) : List Error :=
  match Operand.render spec with
  | .ok _ => []
  | .error e => [e]

/-- The secrets after the encryption configuration has been copied for a revision, if there is one. -/
def Copied (s : Settings) (r : Int) (v : ClusterView) (after : Cache Secret) : Prop :=
  Rollout.snapshot? v s r = none ∧ after = v.secrets ∨
    ∃ x, Rollout.snapshot? v s r = some x ∧ Cache.Stores x v.secrets after

def Plan.wanted (p : Plan) (s : Settings) (spec : OperatorSpec) (v : ClusterView) : Deployment :=
  Rollout.deployment s spec.logLevel p.revision p.digests (Rollout.proxyEnv v s)

def deploy (s : Settings) (recorded : Option Int) (p : Plan) (wanted : Deployment) :
    Program (Except Error Deployment) := do
  match ← Program.ask (.applyDeployment wanted recorded p.force) with
  | .error e => pure (.error e)
  | .ok (d, changed) =>
    if changed then publish (.normal "DeploymentUpdated" (rolloutNote s p))
    pure (.ok d)

theorem applyPlan_eq_deploy (s : Settings) (operator : OperatorResource) (recorded : Option Int) (p : Plan) :
    applyPlan s operator recorded p = view >>= fun v => deploy s recorded p (p.wanted s operator.spec v) := rfl

/-- A plan has been carried out, and nothing else has changed. -/
structure RolledOut (s : Settings) (operator : OperatorResource) (p : Plan) (d : Deployment)
    (a b : ClusterState) : Prop where
  state : b = { a with view := { a.view with secrets := b.view.secrets, deployments := b.view.deployments } }
  found : b.view.deployment? s = some d
  secrets : if p.revision = operator.statusOrEmpty.latestRevision then b.view.secrets = a.view.secrets
    else Copied s p.revision a.view b.view.secrets

/-- What is reported when this has been applied. -/
def successReport (s : Settings) (operator : OperatorResource) (errors : List Error) (applied : Applied)
    (problem : Option Unavailable) : Report where
  applied := some applied
  current := some applied.1
  recorded := applied.1.metadata.generation <|> recordedGeneration s operator
  problem
  errors

theorem uses_prepare_unwritten (s : Settings) : (prepare s).Uses fun c => ¬c.IsStatusWrite :=
  uses_prepare_of s id (fun _ => id) fun _ hc => hc.lasting.not_isStatusWrite

theorem uses_rollOut_unwritten (s : Settings) (operator : OperatorResource) (changed : Bool) (recorded : Option Int) :
    (rollOut s operator changed recorded).Uses fun c => ¬c.IsStatusWrite :=
  uses_rollOut_of id (fun _ => id) (fun _ => id) fun _ _ => id

end Workload

namespace Collaborators

open Workload

variable {s : Settings} {σ α β : Type} (w : Collaborators s σ)

theorem errors_applyAll {l : List (String × Program (Except Error Bool))}
    (hl : ∀ e ∈ l, ∃ m, e.2 = .ask (.applyManifest m)) (kind : String) (last : Program (Except Error Bool))
    {a : σ} (h : w.Manages (applyAll (l ++ [(kind, last)])) a) :
    ∃ b, w.Manages last b ∧ (w.result (applyAll (l ++ [(kind, last)])) a).2 =
      match w.result last b with
      | .ok _ => []
      | .error e => [e] := by
  induction l generalizing a with
  | nil =>
    rw [List.nil_append, applyAll_cons, manages_bind] at h
    refine ⟨a, h.1, ?_⟩
    rw [List.nil_append, result_applyAll_cons]
    rcases w.result last a with e | _ | _ <;> rfl
  | cons e r ih =>
    obtain ⟨⟨m, he⟩, hr⟩ := List.forall_mem_cons.1 hl
    rw [List.cons_append, applyAll_cons, manages_bind, manages_bind] at h
    obtain ⟨b, hb, herrors⟩ := ih hr h.2.1
    refine ⟨b, hb, ?_⟩
    have hok : ∃ x, w.result e.2 a = .ok x := by
      apply exists_ok
      intro x hx
      rw [he] at h hx
      have hfailed := w.not_failed_of_manages (c := .applyManifest m) id h.1
      rw [show (w.answer (.applyManifest m) a).1 = .error x from hx] at hfailed
      exact hfailed trivial
    obtain ⟨x, hx⟩ := hok
    rw [List.cons_append, result_applyAll_cons, hx, ← herrors]
    cases x <;> rfl

theorem errors_applyPrerequisites {spec : OperatorSpec} {a : σ} (h : w.Manages (applyPrerequisites s spec) a) :
    (w.result (applyPrerequisites s spec) a).2 = renderErrors spec := by
  let steps : List (String × Program (Except Error Bool)) :=
    (Operand.manifests s).map fun m => (m.kind, .ask (.applyManifest m))
  have hmanifests : ∀ e ∈ steps, ∃ m, e.2 = .ask (.applyManifest m) := by
    intro e he
    obtain ⟨m, -, rfl⟩ := List.mem_map.1 he
    exact ⟨m, rfl⟩
  simp only [applyPrerequisites, manages_bind] at h
  obtain ⟨b, hb, herrors⟩ := w.errors_applyAll hmanifests "ConfigMap" (applyConfig s spec) h.1
  have hresult : (w.result (applyPrerequisites s spec) a).2 =
      (w.result (applyAll (steps ++ [("ConfigMap", applyConfig s spec)])) a).2 := by
    simp only [applyPrerequisites, result_bind, result_pure]
    rfl
  rw [hresult, herrors]
  unfold renderErrors
  cases hrender : Operand.render spec with
  | error e => simp [applyConfig, hrender]
  | ok rendered =>
    simp only [applyConfig, hrender] at hb ⊢
    have hok := w.not_failed_of_manages (c := .applyConfigMap (Operand.configMap s rendered)) id hb
    cases hx : w.result (Program.ask (.applyConfigMap (Operand.configMap s rendered))) b with
    | ok x => rfl
    | error e =>
      rw [show (w.answer (.applyConfigMap (Operand.configMap s rendered)) b).1 = .error e from hx] at hok
      exact absurd trivial hok

theorem read_of_manages {f : Except Error OperatorResource → Program α} {a : σ}
    (h : w.Manages (Program.ask .getOperator >>= f) a) :
    w.result (Program.ask .getOperator) a = .ok (w.state a).operator := by
  rw [manages_bind] at h
  have hprobes : ¬Call.IsProbe .getOperator := id
  obtain ⟨current, hx⟩ := w.exists_read_of_failsOnly hprobes h.1
  obtain rfl := w.eq_of_getOperator hx
  exact hx

theorem manages_applyPrerequisites {a : σ} (hdeployable : Deployable (w.state a).operator.spec)
    (h : w.Manages (prepare s) a) :
    w.Manages (applyPrerequisites s (w.state a).operator.spec) (w.after (Program.ask .getOperator) a) := by
  have hread := w.read_of_manages h
  rw [prepare, manages_bind, hread, prepareWith_deployable s hdeployable, manages_bind] at h
  exact h.2.1

theorem prepare_of_manages {a : σ} (hdeployable : Deployable (w.state a).operator.spec)
    (h : w.Manages (prepare s) a) :
    ∃ changed, w.result (prepare s) a =
      .ready (w.state a).operator changed (renderErrors (w.state a).operator.spec) := by
  obtain ⟨hresult, -, -⟩ := w.prepare_of_deployable (w.read_of_manages h) hdeployable
  rw [w.errors_applyPrerequisites (w.manages_applyPrerequisites hdeployable h)] at hresult
  exact ⟨_, hresult⟩

/-- What is applied around the operand are config maps, as far as the caches are concerned. -/
theorem prepare_frame (a : σ) : ∃ m, w.state (w.after (prepare s) a) =
    { w.state a with view := { (w.state a).view with configMaps := m } } := by
  let Framed (b : σ) : Prop := ∃ m, w.state b =
    { w.state a with view := { (w.state a).view with configMaps := m } }
  have hkept (c : Call) (b : σ) (hc : IsPrerequisite s c ∨ Reading c) (hb : Framed b) :
      Framed (w.answer c b).2 := by
    obtain ⟨m, hb⟩ := hb
    rcases hc with hc | hc
    · have hallowed := w.allowed c b
      obtain ⟨n, rfl⟩ | ⟨rendered, rfl⟩ := hc.cases
      · exact ⟨m, Eq.trans hallowed hb⟩
      · cases hx : (w.answer (.applyConfigMap (Operand.configMap s rendered)) b).1 <;>
          simp only [Call.Allows, hx] at hallowed
        · exact ⟨m, hallowed.trans hb⟩
        · obtain ⟨m', hstate⟩ := hallowed
          exact ⟨m', by rw [hstate, hb]⟩
    · exact ⟨m, by rw [w.state_reading hc, hb]⟩
  exact (uses_prepare s).run_preserves w.answer hkept (a := a) ⟨(w.state a).view.configMaps, rfl⟩

theorem takeSnapshot_of_manages {r : Int} {a : σ} (h : w.Manages (takeSnapshot s r) a) :
    w.result (takeSnapshot s r) a = .ok () ∧ ∃ m, Copied s r (w.state a).view m ∧
      w.state (w.after (takeSnapshot s r) a) =
        { w.state a with view := { (w.state a).view with secrets := m } } := by
  simp only [takeSnapshot, manages_bind, result_bind, after_bind, result_view] at h ⊢
  obtain ⟨-, h⟩ := h
  rw [← w.state_after_view a] at h ⊢
  generalize w.after view a = b at h ⊢
  cases hx : Rollout.snapshot? (w.state b).view s r with
  | none => exact ⟨rfl, _, .inl ⟨hx, rfl⟩, rfl⟩
  | some x =>
    simp only [hx, manages_bind] at h
    have hok := w.not_failed_of_manages (c := .applySecret x) id h.1
    have hallowed := w.allowed (.applySecret x) b
    simp only [result_bind, after_bind]
    cases hy : w.result (Program.ask (.applySecret x)) b with
    | error e =>
      rw [show (w.answer (.applySecret x) b).1 = .error e from hy] at hok
      exact absurd trivial hok
    | ok changed =>
      simp only [Call.Allows, show (w.answer (.applySecret x) b).1 = .ok changed from hy] at hallowed
      obtain ⟨m, hstate, hstores⟩ := hallowed
      exact ⟨rfl, m, .inr ⟨x, hx, hstores⟩, hstate⟩

/-- The program applies this deployment with this outcome. -/
def Applies (p : Program α) (a : σ) (wanted : Deployment) (recorded : Option Int) (force : Bool)
    (d : Deployment) : Prop :=
  ∃ b b' changed, (⟨.applyDeployment wanted recorded force, .ok (d, changed), b, b'⟩ : Step σ) ∈
    p.trace w.answer a

variable {w} in
theorem Applies.bind_left {p : Program α} {a : σ} {wanted : Deployment} {recorded : Option Int} {force : Bool}
    {d : Deployment} (h : w.Applies p a wanted recorded force d) (f : α → Program β) :
    w.Applies (p >>= f) a wanted recorded force d := by
  obtain ⟨b, b', changed, h⟩ := h
  exact ⟨b, b', changed, by rw [Program.trace_bind]; exact List.mem_append_left _ h⟩

variable {w} in
theorem Applies.bind_right {p : Program α} {f : α → Program β} {a : σ} {wanted : Deployment}
    {recorded : Option Int} {force : Bool} {d : Deployment}
    (h : w.Applies (f (w.result p a)) (w.after p a) wanted recorded force d) :
    w.Applies (p >>= f) a wanted recorded force d := by
  obtain ⟨b, b', changed, h⟩ := h
  exact ⟨b, b', changed, by rw [Program.trace_bind]; exact List.mem_append_right _ h⟩

theorem deploy_of_manages {recorded : Option Int} {p : Plan} {wanted : Deployment} {a : σ}
    (href : objectRef wanted = deploymentRef s) (h : w.Manages (deploy s recorded p wanted) a) :
    ∃ d m, w.result (deploy s recorded p wanted) a = .ok d ∧
      w.Applies (deploy s recorded p wanted) a wanted recorded p.force d ∧
      w.state (w.after (deploy s recorded p wanted) a) =
        { w.state a with view := { (w.state a).view with deployments := m } } ∧
      (w.state (w.after (deploy s recorded p wanted) a)).view.deployment? s = some d := by
  rw [deploy, manages_bind] at h
  have hok := w.not_failed_of_manages (c := .applyDeployment wanted recorded p.force) id h.1
  have hallowed := w.allowed (.applyDeployment wanted recorded p.force) a
  cases hx : (w.answer (.applyDeployment wanted recorded p.force) a).1 with
  | error e =>
    rw [hx] at hok
    exact absurd trivial hok
  | ok y =>
    obtain ⟨d, changed⟩ := y
    simp only [Call.Allows, hx] at hallowed
    obtain ⟨m, hstate, hfound⟩ := hallowed
    obtain ⟨hfound, -⟩ := hfound href
    have hresult : w.result (Program.ask (.applyDeployment wanted recorded p.force)) a = .ok (d, changed) := hx
    have happlies : w.Applies (Program.ask (.applyDeployment wanted recorded p.force)) a wanted recorded
        p.force d := ⟨a, (w.answer (.applyDeployment wanted recorded p.force) a).2, changed,
          by rw [← hx]; exact List.mem_singleton_self _⟩
    refine ⟨d, m, ?_, happlies.bind_left _, ?_⟩
    · rw [deploy, result_bind, hresult]
      cases changed <;> rfl
    · rw [deploy, after_bind, hresult]
      cases changed with
      | false => exact ⟨hstate, hfound⟩
      | true =>
        simp only [if_true, after_bind, state_after_publish, after_pure]
        exact ⟨hstate, hfound⟩

theorem applyPlan_of_manages {operator : OperatorResource} {recorded : Option Int} {p : Plan} {a : σ}
    (h : w.Manages (applyPlan s operator recorded p) a) :
    ∃ d m, w.result (applyPlan s operator recorded p) a = .ok d ∧
      w.Applies (applyPlan s operator recorded p) a (p.wanted s operator.spec (w.state a).view) recorded p.force d ∧
      w.state (w.after (applyPlan s operator recorded p) a) =
        { w.state a with view := { (w.state a).view with deployments := m } } ∧
      (w.state (w.after (applyPlan s operator recorded p) a)).view.deployment? s = some d := by
  rw [applyPlan_eq_deploy, manages_bind, w.result_view] at h
  obtain ⟨d, m, hresult, happlies, hstate, hfound⟩ := w.deploy_of_manages rfl h.2
  rw [w.state_after_view] at hstate
  refine ⟨d, m, ?_, ?_, ?_⟩
  · rw [applyPlan_eq_deploy, result_bind, w.result_view]
    exact hresult
  · rw [← w.result_view a] at happlies ⊢
    exact happlies.bind_right
  · rw [applyPlan_eq_deploy, after_bind, w.result_view]
    exact ⟨hstate, hfound⟩

theorem carryOut_of_manages {operator : OperatorResource} {recorded : Option Int} {p : Plan} {a : σ}
    (h : w.Manages (carryOut s operator recorded p (.ok ())) a) :
    ∃ d m, w.result (carryOut s operator recorded p (.ok ())) a = .ok (d, p.revision) ∧
      w.Applies (carryOut s operator recorded p (.ok ())) a (p.wanted s operator.spec (w.state a).view) recorded
        p.force d ∧
      w.state (w.after (carryOut s operator recorded p (.ok ())) a) =
        { w.state a with view := { (w.state a).view with deployments := m } } ∧
      (w.state (w.after (carryOut s operator recorded p (.ok ())) a)).view.deployment? s = some d := by
  rw [carryOut, manages_bind] at h
  obtain ⟨d, m, hresult, happlies, hstate, hfound⟩ := w.applyPlan_of_manages h.1
  refine ⟨d, m, ?_, happlies.bind_left _, ?_⟩
  · rw [carryOut, result_bind, hresult]
    rfl
  · rw [carryOut, after_bind, hresult]
    exact ⟨hstate, hfound⟩

theorem execute_of_manages {operator : OperatorResource} {recorded : Option Int} {p : Plan} {a : σ}
    (h : w.Manages (execute s operator recorded p) a) :
    ∃ d, w.result (execute s operator recorded p) a = .ok (d, p.revision) ∧
      w.Applies (execute s operator recorded p) a (p.wanted s operator.spec (w.state a).view) recorded p.force d ∧
      RolledOut s operator p d (w.state a) (w.state (w.after (execute s operator recorded p) a)) := by
  unfold execute at h ⊢
  by_cases hsame : p.revision = operator.statusOrEmpty.latestRevision
  · rw [if_pos hsame] at h ⊢
    obtain ⟨d, m, hresult, happlies, hstate, hfound⟩ := w.carryOut_of_manages h
    refine ⟨d, hresult, happlies, ?_, hfound, ?_⟩
    · rw [hstate]
    · rw [if_pos hsame, hstate]
  · rw [if_neg hsame] at h ⊢
    rw [manages_bind] at h
    obtain ⟨hcopied, m, hcopy, hmiddle⟩ := w.takeSnapshot_of_manages h.1
    rw [hcopied] at h
    obtain ⟨d, m', hresult, happlies, hstate, hfound⟩ := w.carryOut_of_manages h.2
    rw [← hcopied] at happlies
    have hwhole := happlies.bind_right
    rw [hmiddle] at hwhole hstate
    refine ⟨d, ?_, hwhole, ?_⟩
    · rw [result_bind, hcopied]
      exact hresult
    · rw [after_bind, hcopied]
      refine ⟨?_, hfound, ?_⟩
      · rw [hstate]
      · rw [if_neg hsame, hstate]
        exact hcopy

theorem applies_cycle {a : σ} {operator : OperatorResource} {changed : Bool} {errors : List Error}
    (hready : w.result (prepare s) a = .ready operator changed errors) {wanted : Deployment}
    {recorded : Option Int} {force : Bool} {d : Deployment}
    (h : w.Applies (execute s operator (recordedGeneration s operator)
        (plan (w.state (w.after (prepare s) a)).view s operator changed)) (w.after view (w.after (prepare s) a))
      wanted recorded force d) : w.Applies (cycle s) a wanted recorded force d := by
  have hrolls : w.Applies (rollOut s operator changed (recordedGeneration s operator)) (w.after (prepare s) a)
      wanted recorded force d := by
    rw [rollOut_eq_execute]
    rw [← w.result_view (w.after (prepare s) a)] at h
    exact h.bind_right
  rw [cycle_eq_prepare]
  apply Applies.bind_right
  rw [hready]
  exact hrolls.bind_left _

end Collaborators

theorem Recorders.close_of_completes {s : Settings} {σ : Type} (w : Recorders s σ) {operator : OperatorResource}
    {report : Workload.Report} {a : σ} (h : w.Completes (Workload.close s operator report) a) :
    let b := w.state (w.after (Workload.close s operator report) a)
    b.view = (w.state a).view ∧ b.operator.spec = (w.state a).operator.spec ∧
      b.operator.generation = (w.state a).operator.generation ∧
      (∃ now, b.operator.statusOrEmpty = report.status s operator now (w.state a).operator.statusOrEmpty) ∧
      w.result (Workload.close s operator report) a = Workload.ending s report.errors b.operator.statusOrEmpty := by
  rw [Workload.close_eq] at h
  obtain ⟨hstatus, written, hresult⟩ := w.stored_of_completes (h.of_pure fun _ => ⟨_, rfl⟩)
  obtain ⟨hview, hspec, hgeneration, -⟩ := w.updateStatus_frame (report.status s operator)
    (Q := fun _ => True) (fun _ _ _ => trivial) a trivial
  simp only [Workload.close_eq, Collaborators.after_bind, Collaborators.after_pure, Collaborators.result_bind,
    Collaborators.result_pure, hresult]
  exact ⟨hview, hspec, hgeneration, hstatus, rfl⟩

namespace Keepers

open Workload

variable {s : Settings} {σ α : Type} (w : Keepers s σ)

theorem result_assess (operator : OperatorResource) (errors : List Error) (applied : Applied) (a : σ) :
    w.result (assess s operator (some applied, errors)) a = successReport s operator errors applied
      (verdict s (w.state a).view.apiServices (w.discovered a) applied.1) := by
  simp only [assess, Collaborators.result_bind, Collaborators.result_pure, Collaborators.after_pure,
    result_availability]
  rfl

theorem conclude_of_completes {operator : OperatorResource} {errors : List Error} {applied : Applied} {a : σ}
    (h : w.Completes (conclude s operator errors (.ok applied)) a) :
    let report := successReport s operator errors applied
      (verdict s (w.state a).view.apiServices (w.discovered a) applied.1)
    let b := w.state (w.after (conclude s operator errors (.ok applied)) a)
    b.view = (w.state a).view ∧ b.operator.spec = (w.state a).operator.spec ∧
      b.operator.generation = (w.state a).operator.generation ∧
      (∃ now, b.operator.statusOrEmpty = report.status s operator now (w.state a).operator.statusOrEmpty) ∧
      w.result (conclude s operator errors (.ok applied)) a = ending s errors b.operator.statusOrEmpty := by
  have hreads {c : Call} (hc : Collaborators.Reading c) : ¬c.IsStatusWrite := hc.not_isStatusWrite
  obtain ⟨-, hrest⟩ := h.part ((uses_announce s errors (.ok applied)).mono fun _ => hreads)
  simp only [announce, Collaborators.result_pure, Collaborators.after_pure] at hrest
  obtain ⟨-, hcloses⟩ := hrest.part ((uses_assess s operator (some applied, errors)).mono fun _ => hreads)
  simp only [conclude, announce, Collaborators.after_bind, Collaborators.result_bind, Collaborators.result_pure,
    Collaborators.after_pure, result_assess]
  rw [result_assess] at hcloses
  have hassessed := w.state_after_reading (uses_assess s operator (some applied, errors)) a
  rw [← hassessed]
  rw [← hassessed] at hcloses
  generalize hreport : successReport s operator errors applied _ = report at hcloses ⊢
  have herrors : report.errors = errors := by rw [← hreport]; rfl
  have hclosed := w.close_of_completes hcloses
  rw [herrors] at hclosed
  exact hclosed

theorem prepare_of_completes {a : σ} (h : w.Completes (cycle s) a) : w.Manages (prepare s) a ∧
    w.Completes (resume s (w.result (prepare s) a)) (w.after (prepare s) a) := by
  rw [cycle_eq_prepare] at h
  exact h.part (uses_prepare_unwritten s)

theorem rollOut_of_completes {operator : OperatorResource} {changed : Bool} {errors : List Error} {a : σ}
    (h : w.Completes (resume s (.ready operator changed errors)) a) :
    let rolls := rollOut s operator changed (recordedGeneration s operator)
    w.Manages rolls a ∧ w.Completes (conclude s operator errors (w.result rolls a)) (w.after rolls a) := by
  rw [resume] at h
  exact h.part (uses_rollOut_unwritten s operator changed _)

theorem deployed_of_applies {p : Program α} {a : σ} {wanted : Deployment} {recorded : Option Int} {force : Bool}
    {d : Deployment} (h : w.Applies p a wanted recorded force d) :
    d.Matches wanted ∧ (force = true → d.metadata.generation.isSome) := by
  obtain ⟨b, b', changed, hx⟩ := h
  exact w.deployed wanted recorded force b d changed (Program.step_of_mem_trace w.answer hx).1.symm

/-- The cycle carries this plan out, with this deployment in the end. -/
structure Accomplishes (a : σ) (p : Plan) (d : Deployment) : Prop where
  read : w.result (Program.ask .getOperator) a = .ok (w.state a).operator
  planned : ∃ changed, (changed = true ↔ ∃ c, w.Alters (prepare s) a c) ∧
    p = plan (w.state (w.after (prepare s) a)).view s (w.state a).operator changed
  applied : w.Applies (cycle s) a
    (p.wanted s (w.state a).operator.spec (w.state (w.after (prepare s) a)).view)
    (recordedGeneration s (w.state a).operator) p.force d
  matched : d.Matches (p.wanted s (w.state a).operator.spec (w.state (w.after (prepare s) a)).view)
  generated : p.force = true → d.metadata.generation.isSome
  view : (w.state (w.after (cycle s) a)).view = { (w.state (w.after (prepare s) a)).view with
    secrets := (w.state (w.after (cycle s) a)).view.secrets
    deployments := (w.state (w.after (cycle s) a)).view.deployments }
  found : (w.state (w.after (cycle s) a)).view.deployment? s = some d
  secrets : if p.revision = (w.state a).operator.statusOrEmpty.latestRevision then
      (w.state (w.after (cycle s) a)).view.secrets = (w.state (w.after (prepare s) a)).view.secrets
    else Copied s p.revision (w.state (w.after (prepare s) a)).view (w.state (w.after (cycle s) a)).view.secrets
  spec : (w.state (w.after (cycle s) a)).operator.spec = (w.state a).operator.spec
  generation : (w.state (w.after (cycle s) a)).operator.generation = (w.state a).operator.generation
  status : ∃ now, (w.state (w.after (cycle s) a)).operator.statusOrEmpty =
    (successReport s (w.state a).operator (renderErrors (w.state a).operator.spec) (d, p.revision)
      (verdict s (w.state a).view.apiServices (w.discovered a) d)).status s (w.state a).operator now
        (w.state a).operator.statusOrEmpty
  result : w.result (cycle s) a = ending s (renderErrors (w.state a).operator.spec)
    (w.state (w.after (cycle s) a)).operator.statusOrEmpty

/-- What follows the preparations carries the plan out, and stores the report of it. -/
theorem resume_of_completes {operator : OperatorResource} {changed : Bool} {errors : List Error} {p : Plan} {b : σ}
    (hoperator : (w.state b).operator = operator) (hp : plan (w.state b).view s operator changed = p)
    (h : w.Completes (resume s (.ready operator changed errors)) b) :
    let c := w.state (w.after (resume s (.ready operator changed errors)) b)
    ∃ d e, w.Applies (execute s operator (recordedGeneration s operator) p) (w.after RolloutControl.view b)
        (p.wanted s operator.spec (w.state b).view) (recordedGeneration s operator) p.force d ∧
      RolledOut s operator p d (w.state b) e ∧ c.view = e.view ∧ c.operator.spec = operator.spec ∧
      c.operator.generation = operator.generation ∧
      (∃ now, c.operator.statusOrEmpty = (successReport s operator errors (d, p.revision)
        (verdict s (w.state b).view.apiServices (w.discovered b) d)).status s operator now operator.statusOrEmpty) ∧
      w.result (resume s (.ready operator changed errors)) b = ending s errors c.operator.statusOrEmpty := by
  obtain ⟨hrolls, hconcludes⟩ := w.rollOut_of_completes h
  simp only [resume, rollOut_eq_execute, Collaborators.manages_bind, Collaborators.result_bind,
    Collaborators.after_bind, w.result_view, hp] at hrolls hconcludes ⊢
  obtain ⟨-, hexecutes⟩ := hrolls
  obtain ⟨d, hrolled, happlies, hdone⟩ := w.execute_of_manages hexecutes
  rw [hrolled] at hconcludes ⊢
  obtain ⟨hview, hspec, hgeneration, hstatus, hending⟩ := w.conclude_of_completes hconcludes
  rw [w.discovered_after, w.discovered_after] at hstatus
  rw [w.state_after_view] at happlies hdone
  generalize w.after (execute s operator (recordedGeneration s operator) p) (w.after RolloutControl.view b) = e
    at hdone hview hspec hgeneration hstatus hending ⊢
  have hrolledOut := hdone.state
  have hsame : (w.state e).operator = operator := by
    rw [hrolledOut]
    exact hoperator
  have hregistered : (w.state e).view.apiServices = (w.state b).view.apiServices := by rw [hrolledOut]
  rw [hsame] at hspec hgeneration hstatus
  rw [hregistered] at hstatus
  exact ⟨d, w.state e, happlies, hdone, hview, hspec, hgeneration, hstatus, hending⟩

theorem accomplishes_of_completes {a : σ} (hdeployable : Deployable (w.state a).operator.spec)
    (h : w.Completes (cycle s) a) : ∃ p d, w.Accomplishes a p d := by
  obtain ⟨hprepares, hresumes⟩ := w.prepare_of_completes h
  have hread := w.read_of_manages hprepares
  obtain ⟨changed, hready⟩ := w.prepare_of_manages hdeployable hprepares
  have hkept := w.prepare_keeps_operator a
  obtain ⟨m, hframe⟩ := w.prepare_frame a
  have hregistered : (w.state (w.after (prepare s) a)).view.apiServices = (w.state a).view.apiServices := by
    rw [hframe]
  rw [hready] at hresumes
  obtain ⟨d, e, happlies, hdone, hview, hspec, hgeneration, hstatus, hending⟩ :=
    w.resume_of_completes hkept rfl hresumes
  have happlied := w.applies_cycle hready happlies
  obtain ⟨hmatches, hgenerated⟩ := w.deployed_of_applies happlied
  have hafter : w.after (cycle s) a = w.after (resume s (.ready (w.state a).operator changed
      (renderErrors (w.state a).operator.spec))) (w.after (prepare s) a) := by
    rw [cycle_eq_prepare, Collaborators.after_bind, hready]
  have hresult : w.result (cycle s) a = w.result (resume s (.ready (w.state a).operator changed
      (renderErrors (w.state a).operator.spec))) (w.after (prepare s) a) := by
    rw [cycle_eq_prepare, Collaborators.result_bind, hready]
  rw [← hafter] at hview hspec hgeneration hstatus hending
  rw [hregistered, w.discovered_after] at hstatus
  refine ⟨_, d, ⟨hread, ⟨changed, w.changed_iff_alters hready, rfl⟩, happlied, hmatches, hgenerated, ?_, ?_, ?_,
    hspec, hgeneration, hstatus, hresult.trans hending⟩⟩
  · rw [hview, hdone.state]
  · rw [hview]
    exact hdone.found
  · rw [hview]
    exact hdone.secrets

theorem inPlace_of_completes {a : σ} (hdeployable : Deployable (w.state a).operator.spec)
    (h : w.Completes (cycle s) a) {c : Call} (hc : c ∈ prerequisites s (w.state a).operator.spec) :
    w.inPlace c (w.after (cycle s) a) := by
  have hprerequisite : IsPrerequisite s c := ⟨_, hc⟩
  obtain ⟨hprepares, -⟩ := w.prepare_of_completes h
  have hread := w.read_of_manages hprepares
  have happlies := w.manages_applyPrerequisites hdeployable hprepares
  obtain ⟨-, hafter, -⟩ := w.prepare_of_deployable hread hdeployable
  apply w.inPlace_cycle hprerequisite
  rw [hafter]
  apply w.inPlace_of_not_refuses hc
  rintro ⟨x, hx, rfl, hfailed⟩
  exact hprerequisite.lasting.not_isProbe (happlies x hx hfailed)

theorem answers_of_completes {a : σ} (hdeployable : Deployable (w.state a).operator.spec)
    (h : w.Completes (cycle s) a) :
    w.Answers (w.after (cycle s) a) .getOperator ∧
      (∀ c ∈ prerequisites s (w.state a).operator.spec, w.Answers (w.after (cycle s) a) c) ∧
      ∀ d expected force, w.Answers (w.after (cycle s) a) (.applyDeployment d expected force) := by
  have hanswered {x : Step σ} (hx : x ∈ (cycle s).trace w.answer a) (hlasting : x.call.Lasting) :
      w.Answers (w.after (cycle s) a) x.call :=
    w.answers_of_mem hx hlasting fun hfailed =>
      (h.fails x hx hfailed).elim hlasting.not_isProbe hlasting.not_isStatusWrite
  obtain ⟨hprepares, -⟩ := w.prepare_of_completes h
  have hread := w.read_of_manages hprepares
  obtain ⟨-, -, htrace⟩ := w.prepare_of_deployable hread hdeployable
  have hmem {x : Step σ} (hx : x ∈ (prepare s).trace w.answer a) : x ∈ (cycle s).trace w.answer a := by
    rw [cycle_eq_prepare, Program.trace_bind]
    exact List.mem_append_left _ hx
  refine ⟨?_, ?_, ?_⟩
  · have hx : (⟨.getOperator, (w.answer .getOperator a).1, a, (w.answer .getOperator a).2⟩ : Step σ) ∈
        (prepare s).trace w.answer a := by
      rw [htrace]
      exact List.mem_append_left _ (List.mem_singleton_self _)
    exact hanswered (hmem hx) trivial
  · intro c hc
    obtain ⟨x, hx, rfl⟩ := w.applyPrerequisites_calls hc (w.after (Program.ask .getOperator) a)
    have hprerequisite : IsPrerequisite s x.call := ⟨_, hc⟩
    have hprepared : x ∈ (prepare s).trace w.answer a := by
      rw [htrace]
      exact List.mem_append_right _ hx
    exact hanswered (hmem hprepared) hprerequisite.lasting
  · obtain ⟨p, d, hdone⟩ := w.accomplishes_of_completes hdeployable h
    obtain ⟨b, b', changed, hx⟩ := hdone.applied
    intro d' expected force
    exact w.willing _ _ _ d' expected force _ (hanswered hx trivial)

end Keepers

end RolloutControl
