import RolloutControl.Proofs.Workload.Failure
/-! Whoever answers the operator and keeps what has been applied: a deployment is as it was wanted, applying
it once more changes nothing, and what could be done can be done again. -/

namespace RolloutControl

/-- A deployment in which nothing is left to be changed. -/
structure Deployment.Matches (d wanted : Deployment) : Prop where
  spec : d.spec = wanted.spec
  labels : d.metadata.labels = wanted.metadata.labels
  annotations : d.metadata.annotations = wanted.metadata.annotations

theorem Deployment.Matches.recordedDependencies {d wanted : Deployment} (h : d.Matches wanted) :
    Rollout.recordedDependencies d = Rollout.recordedDependencies wanted := by
  rw [Rollout.recordedDependencies, h.annotations, Rollout.recordedDependencies]

theorem Deployment.Matches.podLabel? {d wanted : Deployment} (h : d.Matches wanted) (label : String) :
    d.podLabel? label = wanted.podLabel? label := by
  rw [Deployment.podLabel?, h.spec, Deployment.podLabel?]

/-- A call that is answered as long as nobody interferes: nothing has to be as it was before. -/
def Call.Lasting : Call → Prop
  | .getOperator | .applyManifest _ | .applyConfigMap _ | .applyDeployment _ _ _ => True
  | _ => False

theorem Call.Lasting.not_isProbe {c : Call} (h : c.Lasting) : ¬c.IsProbe := by
  cases c with
  | probe => exact h.elim
  | _ => exact id

theorem Call.Lasting.not_isStatusWrite {c : Call} (h : c.Lasting) : ¬c.IsStatusWrite := by
  cases c with
  | writeStatus => exact h.elim
  | _ => exact id

theorem Workload.IsPrerequisite.lasting {s : Settings} {c : Call} (h : Workload.IsPrerequisite s c) :
    c.Lasting := by
  obtain ⟨m, rfl⟩ | ⟨rendered, rfl⟩ := h.cases <;> trivial

/-- Whoever answers the operator and keeps what is applied. A deployment that is as it is wanted stays unless
its rollout is forced, what can be done once can be done again, and discovery has an answer of its own. -/
structure Keepers (s : Settings) (σ : Type) extends Appliers s σ where
  deployed : ∀ d expected force x (d' : Deployment) changed,
    (answer (.applyDeployment d expected force) x).1 = .ok (d', changed) →
      d'.Matches d ∧ (force = true → d'.metadata.generation.isSome)
  undisturbed : ∀ d expected x (d' : Deployment), objectRef d = deploymentRef s →
    (state x).view.deployment? s = some d' → d'.Matches d →
      ¬Call.Failed (.applyDeployment d expected false) (answer (.applyDeployment d expected false) x).1 →
        (answer (.applyDeployment d expected false) x).1 = .ok (d', false) ∧
          state (answer (.applyDeployment d expected false) x).2 = state x
  lasting : ∀ (c c' : Call) x, c.Lasting → ¬c.Failed (answer c x).1 → ¬c.Failed (answer c (answer c' x).2).1
  willing : ∀ d expected force d' expected' force' x,
    ¬Call.Failed (.applyDeployment d expected force) (answer (.applyDeployment d expected force) x).1 →
    ¬Call.Failed (.applyDeployment d' expected' force') (answer (.applyDeployment d' expected' force') x).1
  discovery : ∀ gv c x, (answer (.probe gv) (answer c x).2).1 = (answer (.probe gv) x).1

namespace Keepers

open Workload

variable {s : Settings} {σ α : Type} (w : Keepers s σ)

def Answers (a : σ) (c : Call) : Prop := ¬c.Failed (w.answer c a).1

theorem answers_after {c : Call} (hc : c.Lasting) (p : Program α) {a : σ} (h : w.Answers a c) :
    w.Answers (w.after p a) c :=
  p.uses_any.run_preserves w.answer (P := fun b => w.Answers b c) (fun c' b _ hb => w.lasting c c' b hc hb) h

theorem answers_before {c : Call} (hc : c.Lasting) {p : Program α} {a : σ} (h : w.Answers a c) {x : Step σ}
    (hx : x ∈ p.trace w.answer a) : w.Answers x.before c :=
  p.uses_any.before_of_mem w.answer (P := fun b => w.Answers b c) (fun c' b _ hb => w.lasting c c' b hc hb) h hx

theorem answers_of_mem {p : Program α} {a : σ} {x : Step σ} (hx : x ∈ p.trace w.answer a)
    (hc : x.call.Lasting) (hok : ¬x.call.Failed x.answer) : w.Answers (w.after p a) x.call := by
  obtain ⟨hanswer, hafter⟩ := Program.step_of_mem_trace w.answer hx
  have hthen : w.Answers x.after x.call := by
    rw [hafter]
    apply w.lasting x.call x.call x.before hc
    rwa [← hanswer]
  exact p.uses_any.run_of_mem w.answer (P := fun b => w.Answers b x.call)
    (fun c' b _ hb => w.lasting x.call c' b hc hb) hx hthen

theorem read_of_answers {a : σ} (h : w.Answers a .getOperator) :
    w.result (Program.ask .getOperator) a = .ok (w.state a).operator := by
  unfold Answers at h
  cases hx : w.result (Program.ask .getOperator) a with
  | error e =>
    rw [show (w.answer .getOperator a).1 = .error e from hx] at h
    exact absurd trivial h
  | ok current => rw [w.eq_of_getOperator hx]

def discovered (a : σ) (gv : String) : Except Error Unit := (w.answer (.probe gv) a).1

theorem discovered_answer (c : Call) (a : σ) : w.discovered (w.answer c a).2 = w.discovered a :=
  funext fun gv => w.discovery gv c a

@[simp] theorem discovered_after (p : Program α) (a : σ) : w.discovered (w.after p a) = w.discovered a :=
  p.uses_any.run_keeps w.answer w.discovered (fun c b _ => w.discovered_answer c b) a

theorem result_probeAll (l : List String) (a : σ) :
    w.result (probeAll l) a = l.map fun gv => (gv, w.discovered a gv) := by
  induction l generalizing a with
  | nil => rfl
  | cons gv r ih =>
    simp only [probeAll, Collaborators.result_bind, Collaborators.result_pure, ih, discovered_after]
    rfl

end Keepers

namespace Workload

def verdict (s : Settings) (services : Cache ApiService) (answers : String → Except Error Unit)
    (d : Deployment) : Option Unavailable :=
  if d.readyReplicas = 0 then some (WorkloadCondition.noPod s)
  else
    (checkRegistrations services s.groupVersions).or
      (checkDiscovery (s.groupVersions.map fun gv => (gv, answers gv)))

end Workload

namespace Keepers

open Workload

variable {s : Settings} {σ α : Type} (w : Keepers s σ)

theorem result_availability (d : Deployment) (a : σ) :
    w.result (availability s (some d)) a = verdict s (w.state a).view.apiServices (w.discovered a) d := by
  unfold availability verdict
  by_cases hready : d.readyReplicas = 0
  · simp [hready]
  · simp only [hready, if_false, Collaborators.result_bind, w.result_view]
    cases checkRegistrations (w.state a).view.apiServices s.groupVersions with
    | some problem => rfl
    | none => simp [result_probeAll]

end Keepers

end RolloutControl
