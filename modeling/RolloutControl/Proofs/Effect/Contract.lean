import RolloutControl.Proofs.Effect.Trace
import RolloutControl.Workload.Rollout
/-! What the operator counts on when it makes a call. A call that fails changes nothing. One that
succeeds does what it is for and touches nothing else. -/

namespace RolloutControl

/-- What the cluster holds, as far as the operator can read it. -/
structure ClusterState where
  view : ClusterView
  operator : OperatorResource

/-- What a secret holds for those who mount it. -/
abbrev Secret.Contents := Option (Dict String Bytes) × Option (Dict String String)

def Secret.contents (x : Secret) : Secret.Contents := (x.data, x.stringData)

/-- A cache after a secret has been applied. It may hold more of the secret than was applied. -/
structure Cache.Stores (x : Secret) (before after : Cache Secret) : Prop where
  found : ∀ space, (objectRef x).space = some space →
    ∃ y, after.within? space (objectRef x).name = some y ∧ y.contents = x.contents
  frame : ∀ r, r ≠ objectRef x → Dict.get? after r = Dict.get? before r

/-- A deployment that is as another one was wanted to be. -/
structure Deployment.Realizes (d wanted : Deployment) : Prop where
  labels : ∀ label, d.podLabel? label = wanted.podLabel? label
  dependencies : Rollout.recordedDependencies d = Rollout.recordedDependencies wanted

def deploymentRef (s : Settings) : ObjectRef := ⟨s.deploymentName, some s.targetSpace⟩

/-- Whether a call may be answered like this and leave `b` where there was `a`. -/
def Call.Allows (s : Settings) (a b : ClusterState) : (c : Call) → c.Answer → Prop
  | .view, v => v = a.view ∧ b = a
  | .getOperator, .ok r => r = a.operator ∧ b = a
  | .writeSpec _ _, .ok r => b.view = a.view ∧ b.operator = r ∧ r.status = a.operator.status
  | .writeStatus _ status, .ok r => b.view = a.view ∧ b.operator = r ∧ r.status = some status
  | .applyConfigMap _, .ok _ =>
    ∃ m, b = { a with view := { a.view with configMaps := m } }
  | .applySecret x, .ok _ =>
    ∃ m, b = { a with view := { a.view with secrets := m } } ∧ Cache.Stores x a.view.secrets m
  | .applyDeployment d _ _, .ok (d', _) =>
    ∃ m, b = { a with view := { a.view with deployments := m } } ∧
      (objectRef d = deploymentRef s → b.view.deployment? s = some d' ∧ d'.Realizes d)
  | _, _ => b = a

def Call.Failed : (c : Call) → c.Answer → Prop
  | .getOperator, .error _ | .writeSpec _ _, .error _ | .writeStatus _ _, .error _ => True
  | .applyManifest _, .error _ | .applyConfigMap _, .error _ | .applySecret _, .error _ => True
  | .applyDeployment _ _ _, .error _ => True
  | .probe _, .error _ => True
  | _, _ => False

def Call.Changed : (c : Call) → c.Answer → Prop
  | .applyManifest _, .ok true | .applyConfigMap _, .ok true | .applySecret _, .ok true => True
  | _, _ => False

theorem Call.changed_applyManifest (m : Manifest) (x : Except Error Bool) :
    Call.Changed (.applyManifest m) x ↔ x = .ok true := by
  rcases x with e | _ | _ <;> simp [Call.Changed]

theorem Call.changed_applyConfigMap (cm : ConfigMap) (x : Except Error Bool) :
    Call.Changed (.applyConfigMap cm) x ↔ x = .ok true := by
  rcases x with e | _ | _ <;> simp [Call.Changed]

instance : (c : Call) → (x : c.Answer) → Decidable (c.Failed x)
  | .getOperator, .error _ | .writeSpec _ _, .error _ | .writeStatus _ _, .error _ => .isTrue trivial
  | .applyManifest _, .error _ | .applyConfigMap _, .error _ | .applySecret _, .error _ => .isTrue trivial
  | .applyDeployment _ _ _, .error _ | .probe _, .error _ => .isTrue trivial
  | .getOperator, .ok _ | .writeSpec _ _, .ok _ | .writeStatus _ _, .ok _ => .isFalse id
  | .applyManifest _, .ok _ | .applyConfigMap _, .ok _ | .applySecret _, .ok _ => .isFalse id
  | .applyDeployment _ _ _, .ok _ | .probe _, .ok _ => .isFalse id
  | .view, _ | .clock, _ | .publish _, _ | .sleep _, _ => .isFalse id

def Call.IsStatusWrite : Call → Prop
  | .writeStatus _ _ => True
  | _ => False

instance (c : Call) : Decidable c.IsStatusWrite :=
  match c with
  | .writeStatus _ _ => .isTrue trivial
  | .view | .clock | .getOperator | .writeSpec _ _ | .applyManifest _ | .applyConfigMap _ => .isFalse id
  | .applySecret _ | .applyDeployment _ _ _ | .probe _ | .publish _ | .sleep _ => .isFalse id

def Call.IsSpecWrite : Call → Prop
  | .writeSpec _ _ => True
  | _ => False

instance (c : Call) : Decidable c.IsSpecWrite :=
  match c with
  | .writeSpec _ _ => .isTrue trivial
  | .view | .clock | .getOperator | .writeStatus _ _ | .applyManifest _ | .applyConfigMap _ => .isFalse id
  | .applySecret _ | .applyDeployment _ _ _ | .probe _ | .publish _ | .sleep _ => .isFalse id

def Call.IsProbe : Call → Prop
  | .probe _ => True
  | _ => False

instance : DecidablePred Call.IsProbe := fun c =>
  match c with
  | .probe _ => .isTrue trivial
  | .view | .clock | .getOperator | .writeSpec _ _ | .writeStatus _ _ | .applyManifest _ => .isFalse id
  | .applyConfigMap _ | .applySecret _ | .applyDeployment _ _ _ | .publish _ | .sleep _ => .isFalse id

theorem Call.IsProbe.not_isStatusWrite {c : Call} (h : c.IsProbe) : ¬c.IsStatusWrite := by
  cases c with
  | probe => exact id
  | _ => exact h.elim

theorem Call.Allows.eq_of_failed {s : Settings} {a b : ClusterState} {c : Call} {x : c.Answer}
    (h : c.Allows s a b x) (hx : c.Failed x) : b = a := by
  cases c with
  | view | clock | publish | sleep => exact hx.elim
  | _ =>
    cases x with
    | error e => exact h
    | ok y => exact hx.elim

/-- Whoever answers the operator: a world, what the cluster holds in each of its states, and the
promise that the calls do what they are for. Which of them fail, and when, is up to the world. -/
structure Collaborators (s : Settings) (σ : Type) where
  answer : Program.World σ
  state : σ → ClusterState
  allowed : ∀ (c : Call) x, c.Allows s (state x) (state (answer c x).2) (answer c x).1

namespace Collaborators

variable {s : Settings} {σ α β : Type} (w : Collaborators s σ)

def result (p : Program α) (a : σ) : α := (p.run w.answer a).1

def after (p : Program α) (a : σ) : σ := (p.run w.answer a).2

@[simp] theorem result_pure (x : α) (a : σ) : w.result (pure x) a = x := rfl

@[simp] theorem after_pure (x : α) (a : σ) : w.after (pure x) a = a := rfl

@[simp] theorem result_bind (p : Program α) (f : α → Program β) (a : σ) :
    w.result (p >>= f) a = w.result (f (w.result p a)) (w.after p a) := by
  simp [result, after]

@[simp] theorem after_bind (p : Program α) (f : α → Program β) (a : σ) :
    w.after (p >>= f) a = w.after (f (w.result p a)) (w.after p a) := by
  simp [result, after]

theorem after_ask (c : Call) (a : σ) : w.after (Program.ask c) a = (w.answer c a).2 := rfl

theorem result_view (a : σ) : w.result view a = (w.state a).view := (w.allowed .view a).1

theorem state_of_failed {c : Call} {a : σ} (h : c.Failed (w.answer c a).1) :
    w.state (w.answer c a).2 = w.state a :=
  (w.allowed c a).eq_of_failed h

/-- A call that asks for something or tells somebody. -/
def Reading : Call → Prop
  | .view | .clock | .getOperator | .probe _ | .publish _ | .sleep _ => True
  | _ => False

theorem state_reading {c : Call} (hc : Reading c) (a : σ) : w.state (w.answer c a).2 = w.state a := by
  have h := w.allowed c a
  cases c with
  | getOperator =>
    cases hx : (w.answer .getOperator a).1 with
    | error e => simpa only [Call.Allows, hx] using h
    | ok r => exact (by simpa only [Call.Allows, hx] using h : _ ∧ _).2
  | view => exact h.2
  | clock | probe | publish | sleep => exact h
  | _ => exact hc.elim

theorem state_after_reading {p : Program α} (hp : p.Uses Reading) (a : σ) :
    w.state (w.after p a) = w.state a :=
  hp.run_keeps w.answer w.state (fun _ b hc => w.state_reading hc b) a

theorem reading_publishAll (l : List Event) : (publishAll l).Uses Reading :=
  Program.uses_publishAll fun _ _ => trivial

theorem reading_probeAll (l : List String) : (probeAll l).Uses Reading := by
  induction l with
  | nil => exact .pure []
  | cons gv r ih => exact .bind (.ask trivial) fun _ => .bind ih fun _ => .pure _

@[simp] theorem state_after_view (a : σ) : w.state (w.after view a) = w.state a :=
  w.state_reading (c := .view) trivial a

@[simp] theorem state_after_publish (e : Event) (a : σ) : w.state (w.after (publish e) a) = w.state a :=
  w.state_reading (c := .publish e) trivial a

@[simp] theorem state_after_publishAll (l : List Event) (a : σ) :
    w.state (w.after (publishAll l) a) = w.state a :=
  w.state_after_reading (reading_publishAll l) a

theorem eq_of_getOperator {a : σ} {current : OperatorResource}
    (h : (w.answer .getOperator a).1 = .ok current) : current = (w.state a).operator := by
  have hallowed := w.allowed .getOperator a
  simp only [Call.Allows, h] at hallowed
  exact hallowed.1

def WritesStatus (p : Program α) (a : σ) : Prop := ∃ x ∈ p.trace w.answer a, x.call.IsStatusWrite

instance (p : Program α) (a : σ) : Decidable (w.WritesStatus p a) :=
  inferInstanceAs (Decidable (∃ x ∈ p.trace w.answer a, x.call.IsStatusWrite))

@[simp] theorem writesStatus_pure (x : α) (a : σ) : ¬w.WritesStatus (pure x) a := by simp [WritesStatus]

theorem writesStatus_ask (c : Call) (a : σ) :
    w.WritesStatus (Program.ask c) a ↔ c.IsStatusWrite := by
  simp [WritesStatus]

@[simp] theorem writesStatus_bind (p : Program α) (f : α → Program β) (a : σ) :
    w.WritesStatus (p >>= f) a ↔
      w.WritesStatus p a ∨ w.WritesStatus (f (w.result p a)) (w.after p a) := by
  simp [WritesStatus, result, after, or_and_right, exists_or]

theorem Reading.not_changed {c : Call} {x : c.Answer} (h : Reading c) : ¬c.Changed x := by
  cases c with
  | view | clock | getOperator | probe | publish | sleep => exact id
  | _ => exact h.elim

theorem Reading.not_isStatusWrite {c : Call} (h : Reading c) : ¬c.IsStatusWrite := by
  cases c with
  | writeStatus => exact h.elim
  | _ => exact id

theorem not_writesStatus {p : Program α} (hp : p.Uses fun c => ¬c.IsStatusWrite) (a : σ) :
    ¬w.WritesStatus p a := by
  rintro ⟨x, hx, hwrite⟩
  exact hp.mem_trace w.answer hx hwrite

/-- No call of the program is answered with an error. -/
def Succeeds (p : Program α) (a : σ) : Prop := ∀ x ∈ p.trace w.answer a, ¬x.call.Failed x.answer

instance (p : Program α) (a : σ) : Decidable (w.Succeeds p a) :=
  inferInstanceAs (Decidable (∀ x ∈ p.trace w.answer a, ¬x.call.Failed x.answer))

theorem succeeds_ask (c : Call) (a : σ) :
    w.Succeeds (Program.ask c) a ↔ ¬c.Failed (w.answer c a).1 := by
  simp [Succeeds]

@[simp] theorem succeeds_pure (x : α) (a : σ) : w.Succeeds (pure x) a := by simp [Succeeds]

@[simp] theorem succeeds_bind (p : Program α) (f : α → Program β) (a : σ) :
    w.Succeeds (p >>= f) a ↔ w.Succeeds p a ∧ w.Succeeds (f (w.result p a)) (w.after p a) := by
  simp [Succeeds, result, after, or_imp, forall_and]

/-- No call of the program is answered with an error, except for calls of this kind. -/
def FailsOnly (kind : Call → Prop) (p : Program α) (a : σ) : Prop :=
  ∀ x ∈ p.trace w.answer a, x.call.Failed x.answer → kind x.call

instance (kind : Call → Prop) [DecidablePred kind] (p : Program α) (a : σ) :
    Decidable (w.FailsOnly kind p a) :=
  inferInstanceAs (Decidable (∀ x ∈ p.trace w.answer a, x.call.Failed x.answer → kind x.call))

theorem failsOnly_ask {kind : Call → Prop} (c : Call) (a : σ) :
    w.FailsOnly kind (Program.ask c) a ↔ (c.Failed (w.answer c a).1 → kind c) := by
  simp [FailsOnly]

@[simp] theorem failsOnly_bind {kind : Call → Prop} (p : Program α) (f : α → Program β) (a : σ) :
    w.FailsOnly kind (p >>= f) a ↔
      w.FailsOnly kind p a ∧ w.FailsOnly kind (f (w.result p a)) (w.after p a) := by
  simp [FailsOnly, result, after, or_imp, forall_and]

@[simp] theorem failsOnly_pure {kind : Call → Prop} (x : α) (a : σ) : w.FailsOnly kind (pure x) a := by
  simp [FailsOnly]

def Manages (p : Program α) (a : σ) : Prop := w.FailsOnly Call.IsProbe p a

@[simp] theorem manages_bind (p : Program α) (f : α → Program β) (a : σ) :
    w.Manages (p >>= f) a ↔ w.Manages p a ∧ w.Manages (f (w.result p a)) (w.after p a) :=
  w.failsOnly_bind p f a

theorem not_failed_of_manages {c : Call} (hc : ¬c.IsProbe) {a : σ} (h : w.Manages (Program.ask c) a) :
    ¬c.Failed (w.answer c a).1 :=
  fun hfailed => hc ((w.failsOnly_ask c a).1 h hfailed)

/-- Nothing fails but calls to discovery and writes of the status, and if the status is written at all, one of
its writes is answered without an error. -/
structure Completes (p : Program α) (a : σ) : Prop where
  fails : w.FailsOnly (fun c => c.IsProbe ∨ c.IsStatusWrite) p a
  records : w.WritesStatus p a → ∃ x ∈ p.trace w.answer a, x.call.IsStatusWrite ∧ ¬x.call.Failed x.answer

theorem completes_of_manages {p : Program α} {a : σ} (h : w.Manages p a) : w.Completes p a where
  fails x hx hfailed := .inl (h x hx hfailed)
  records := by
    rintro ⟨x, hx, hwrite⟩
    exact ⟨x, hx, hwrite, fun hfailed => (h x hx hfailed).not_isStatusWrite hwrite⟩

section Completes
variable {w} {p : Program α} {f : α → Program β} {a : σ} (h : w.Completes (p >>= f) a)

include h

theorem Completes.rest (hp : ¬∃ x ∈ p.trace w.answer a, x.call.IsStatusWrite ∧ ¬x.call.Failed x.answer) :
    w.Completes (f (w.result p a)) (w.after p a) where
  fails := ((w.failsOnly_bind p f a).1 h.fails).2
  records hwrites := by
    obtain ⟨x, hx, hstored⟩ := h.records ((w.writesStatus_bind p f a).2 (.inr hwrites))
    rw [Program.trace_bind, List.mem_append] at hx
    rcases hx with hx | hx
    · exact absurd ⟨x, hx, hstored⟩ hp
    · exact ⟨x, hx, hstored⟩

theorem Completes.part (hp : p.Uses fun c => ¬c.IsStatusWrite) :
    w.Manages p a ∧ w.Completes (f (w.result p a)) (w.after p a) := by
  constructor
  · intro x hx hfailed
    exact (((w.failsOnly_bind p f a).1 h.fails).1 x hx hfailed).resolve_right (hp.mem_trace w.answer hx)
  · apply h.rest
    rintro ⟨x, hx, hwrite, -⟩
    exact hp.mem_trace w.answer hx hwrite

theorem Completes.of_pure (hf : ∀ x, ∃ y, f x = pure y) : w.Completes p a := by
  obtain ⟨y, hy⟩ := hf (w.result p a)
  have htrace : (p >>= f).trace w.answer a = p.trace w.answer a := by
    have hrun : f (p.run w.answer a).1 = pure y := hy
    rw [Program.trace_bind, hrun, Program.trace_pure, List.append_nil]
  have hfails := h.fails
  have hrecords := h.records
  unfold FailsOnly at hfails
  unfold WritesStatus at hrecords
  rw [htrace] at hfails hrecords
  exact ⟨hfails, hrecords⟩

end Completes

end Collaborators

end RolloutControl
