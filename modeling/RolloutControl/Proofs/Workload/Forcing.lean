import RolloutControl.Proofs.Simulation.Steady
import RolloutControl.Proofs.Workload.Failure
/-! What becomes of a forced rollout that fails. The next cycle finds the generation of the operator
resource still unobserved, and the digests of the dependencies still other ones than those that the
deployment carries. An object around the operand is a cause only once: after it has been applied it is in
place, and nothing tells the next cycle that the deployment has not been rolled out for it. -/

namespace RolloutControl

namespace Rollout

theorem dependencies_congr {v v' : ClusterView} {s : Settings} (hconfigMaps : v'.configMaps = v.configMaps)
    (hsecrets : ∀ name ∈ s.objects.dependencySecrets,
      v'.secret? s.targetSpace name = v.secret? s.targetSpace name) :
    dependencies v' s = dependencies v s := by
  simp only [dependencies, ClusterView.configMap?, hconfigMaps]
  refine List.foldl_ext _ _ _ fun d name hname => ?_
  rw [hsecrets name hname]

/-- The dependencies whose digests are not those that the deployment carries. -/
def outdated (v : ClusterView) (s : Settings) : List String :=
  ((v.deployment? s).map fun d => (dependencies v s).changedFrom (recordedDependencies d)).getD []

theorem outdated_congr {s : Settings} {r : Int} {v v' : ClusterView} (h : v.SameButSnapshot s r v')
    (hr : snapshotName s r ∉ s.objects.dependencySecrets) : outdated v' s = outdated v s := by
  have hdependencies : dependencies v' s = dependencies v s :=
    dependencies_congr h.configMaps fun name hname => h.secrets name fun he => hr (he ▸ hname)
  simp only [outdated, ClusterView.deployment?, h.deployments, hdependencies]

end Rollout

namespace Workload

theorem plan_force {v : ClusterView} {s : Settings} {operator : OperatorResource} {changed : Bool} :
    (plan v s operator changed).force = true ↔
      operator.generation ≠ operator.statusOrEmpty.observedGeneration ∨ changed = true ∨
        Rollout.outdated v s ≠ [] := by
  have houtdated : (plan v s operator changed).changed = Rollout.outdated v s := rfl
  rw [← houtdated]
  simp [plan, or_assoc]

end Workload

namespace Appliers

open Workload

variable {s : Settings} {σ α : Type} (w : Appliers s σ)

theorem inPlace_after {c : Call} (hc : IsPrerequisite s c) {p : Program α}
    (hp : p.Uses fun c' => ¬c'.Displaces c) {a : σ} (h : w.inPlace c a) : w.inPlace c (w.after p a) :=
  hp.run_preserves w.answer (fun c' b hc' hb => w.kept c c' b hc hb hc') h

theorem inPlace_cycle {c : Call} (hc : IsPrerequisite s c) {a : σ} (h : w.inPlace c (w.after (prepare s) a)) :
    w.inPlace c (w.after (cycle s) a) := by
  rw [cycle_eq_prepare, Collaborators.after_bind]
  exact w.inPlace_after hc ((uses_resume s _).mono fun c' hc' => hc' c) h

theorem not_displaces_applyPrerequisites {spec : OperatorSpec} {c : Call} (hc : c ∈ prerequisites s spec) :
    (applyPrerequisites s spec).Uses fun c' => ¬c'.Displaces c := by
  refine (uses_applyPrerequisites s spec).mono fun c' hc' => ?_
  rcases hc' with hc' | hreading
  · exact not_displaces_of_mem hc hc'
  · exact hreading.not_displaces

/-- An object that is not refused is in place at the end. -/
theorem inPlace_of_not_refuses {spec : OperatorSpec} {c : Call} (hc : c ∈ prerequisites s spec) {a : σ}
    (h : ¬w.Refuses (applyPrerequisites s spec) a c) :
    w.inPlace c (w.after (applyPrerequisites s spec) a) := by
  obtain ⟨x, hx, rfl⟩ := w.applyPrerequisites_calls hc a
  obtain ⟨hanswer, hafter⟩ := Program.step_of_mem_trace w.answer hx
  have hok : ¬x.call.Failed (w.answer x.call x.before).1 :=
    fun hfailed => h ⟨x, hx, rfl, by rw [hanswer]; exact hfailed⟩
  refine (not_displaces_applyPrerequisites hc).run_of_mem w.answer
    (fun c' b hc' hb => w.kept x.call c' b ⟨spec, hc⟩ hb hc') hx ?_
  rw [hafter]
  exact w.applied x.call x.before ⟨spec, hc⟩ hok

theorem not_alters_of_inPlace {spec : OperatorSpec} {c : Call} (hc : c ∈ prerequisites s spec) {a : σ}
    (h : w.inPlace c a) : ¬w.Alters (applyPrerequisites s spec) a c := by
  rintro ⟨x, hx, rfl, hchanged⟩
  have hbefore : w.inPlace x.call x.before := (not_displaces_applyPrerequisites hc).before_of_mem w.answer
    (fun c' b hc' hb => w.kept x.call c' b ⟨spec, hc⟩ hb hc') h hx
  rw [(Program.step_of_mem_trace w.answer hx).1] at hchanged
  exact w.settled x.call x.before ⟨spec, hc⟩ hbefore hchanged

theorem state_of_unaltered {spec : OperatorSpec} {a : σ} (h : ∀ c, ¬w.Alters (applyPrerequisites s spec) a c) :
    w.state (w.after (applyPrerequisites s spec) a) = w.state a := by
  refine Program.run_keeps_of_trace w.answer w.state fun x hx => ?_
  obtain ⟨hanswer, hafter⟩ := Program.step_of_mem_trace w.answer hx
  have hunchanged : ¬x.call.Changed (w.answer x.call x.before).1 :=
    fun hchanged => h x.call ⟨x, hx, rfl, by rw [hanswer]; exact hchanged⟩
  rw [hafter]
  rcases (uses_applyPrerequisites s spec).mem_trace w.answer hx with hc | hreading
  · exact w.unwritten x.call x.before ⟨spec, hc⟩ hunchanged
  · exact w.state_reading hreading x.before

end Appliers

/-- A cycle whose rollout fails, and the next one, with nothing in between. The next one can read the
operator resource. -/
structure FailedRollout {s : Settings} {σ : Type} (w : Appliers s σ) where
  start : σ
  operator : OperatorResource
  changed : Bool
  errors : List Error
  error : Error
  ready : w.result (Workload.prepare s) start = .ready operator changed errors
  failed : w.result (Workload.rollOut s operator changed (Workload.recordedGeneration s operator))
    (w.after (Workload.prepare s) start) = .error error
  read : ∃ current, w.result (Program.ask .getOperator) (w.after (Workload.cycle s) start) = .ok current

namespace FailedRollout

open Workload

variable {s : Settings} {σ : Type} {w : Appliers s σ} (f : FailedRollout w)

def prepared : σ := w.after (prepare s) f.start

def middle : σ := w.after (cycle s) f.start

def first : Plan := plan (w.state f.prepared).view s f.operator f.changed

theorem middle_eq : f.middle = w.after (conclude s f.operator f.errors (.error f.error))
    (w.after (rollOut s f.operator f.changed (recordedGeneration s f.operator)) f.prepared) := by
  rw [middle, cycle_eq_prepare, Collaborators.after_bind, f.ready, resume, Collaborators.after_bind, f.failed]
  rfl

theorem operator_eq : f.operator = (w.state f.start).operator :=
  w.eq_of_getOperator (w.deployable_of_ready f.ready).1

/-- A rollout that fails leaves a snapshot and some words in the status. -/
theorem aftermath : (w.state f.prepared).view.SameButSnapshot s f.first.revision (w.state f.middle).view ∧
    (w.state f.middle).operator.spec = f.operator.spec ∧
    (w.state f.middle).operator.generation = f.operator.generation ∧
    (w.state f.middle).operator.statusOrEmpty.observedGeneration =
      f.operator.statusOrEmpty.observedGeneration := by
  have hprepared : (w.state f.prepared).operator = f.operator :=
    (w.prepare_keeps_operator f.start).trans f.operator_eq.symm
  have hfailed := f.failed
  rw [rollOut_eq_execute, Collaborators.result_bind, w.result_view] at hfailed
  obtain ⟨hoperator, hview⟩ := w.execute_of_error hfailed
  have hrolled : w.after (rollOut s f.operator f.changed (recordedGeneration s f.operator)) f.prepared =
      w.after (execute s f.operator (recordedGeneration s f.operator) f.first) (w.after view f.prepared) := by
    rw [rollOut_eq_execute, Collaborators.after_bind, w.result_view]
    rfl
  obtain ⟨hviews, hspec, hgeneration, hobserved⟩ := w.conclude_frame f.operator f.errors f.error
    (w.after (rollOut s f.operator f.changed (recordedGeneration s f.operator)) f.prepared)
  rw [← middle_eq, hrolled] at hviews hspec hgeneration hobserved
  rw [w.state_after_view] at hview hoperator
  rw [hviews, hspec, hgeneration, hobserved]
  have hkept : (w.state (w.after (execute s f.operator (recordedGeneration s f.operator) f.first)
      (w.after view f.prepared))).operator = f.operator := hoperator.trans hprepared
  rw [hkept]
  exact ⟨hview, rfl, rfl, rfl⟩

theorem read_again : w.result (Program.ask .getOperator) f.middle = .ok (w.state f.middle).operator := by
  obtain ⟨current, hread⟩ := f.read
  obtain rfl := w.eq_of_getOperator hread
  exact hread

theorem deployable_again : Deployable (w.state f.middle).operator.spec := by
  obtain ⟨-, hspec, -, -⟩ := f.aftermath
  rw [hspec]
  exact (w.deployable_of_ready f.ready).2

/-- What changes in the next cycle has been refused in the first one. -/
theorem refuses_of_alters {c : Call} (h : w.Alters (prepare s) f.middle c) : w.Refuses (prepare s) f.start c := by
  obtain ⟨hread, hdeployable⟩ := w.deployable_of_ready f.ready
  obtain ⟨-, hprepared, -⟩ := w.prepare_of_deployable hread hdeployable
  obtain ⟨-, hspec, -, -⟩ := f.aftermath
  have haltered := (w.alters_prepare f.read_again f.deployable_again).1 h
  rw [hspec] at haltered
  have hc : c ∈ prerequisites s f.operator.spec := w.mem_prerequisites_of_alters haltered
  -- what was applied in the first cycle stays in place until it is applied once more
  by_contra hnot
  have hin : w.inPlace c f.prepared := by
    rw [prepared, hprepared]
    exact w.inPlace_of_not_refuses hc fun hrefused => hnot (w.refuses_prepare hread hdeployable hrefused)
  have hmiddle : w.inPlace c f.middle := w.inPlace_cycle ⟨_, hc⟩ hin
  have hstart : w.inPlace c (w.after (Program.ask .getOperator) f.middle) :=
    w.inPlace_after ⟨_, hc⟩ (.ask id) hmiddle
  exact w.not_alters_of_inPlace hc hstart haltered

theorem state_prepare_of_unaltered (h : ¬∃ c, w.Alters (prepare s) f.middle c) :
    w.state (w.after (prepare s) f.middle) = w.state f.middle := by
  obtain ⟨-, hafter, -⟩ := w.prepare_of_deployable f.read_again f.deployable_again
  have hread : w.state (w.after (Program.ask .getOperator) f.middle) = w.state f.middle :=
    w.state_reading (c := .getOperator) trivial f.middle
  have hkept := w.state_of_unaltered fun c hc =>
    h ⟨c, (w.alters_prepare f.read_again f.deployable_again).2 hc⟩
  rw [hafter, hkept, hread]

/-- The next cycle forces the rollout again exactly if the generation of the operator resource is still
unobserved, a dependency is not as the deployment carries it, or an object around the operand changes that
was refused before. No other object is a cause any more. -/
theorem forced_again_iff (f : FailedRollout w) :
    ∃ next, w.Decides f.middle next ∧
      (next.force = true ↔ f.operator.generation ≠ f.operator.statusOrEmpty.observedGeneration ∨
        Rollout.outdated (w.state f.middle).view s ≠ [] ∨
        ∃ c, w.Refuses (prepare s) f.start c ∧ w.Alters (prepare s) f.middle c) ∧
      (Rollout.snapshotName s f.first.revision ∉ s.objects.dependencySecrets →
        Rollout.outdated (w.state f.middle).view s = f.first.changed) ∧
      ∀ x ∈ (cycle s).trace w.answer f.middle, ∀ d expected force,
        x.call = .applyDeployment d expected force → force = next.force := by
  obtain ⟨hview, hspec, hgeneration, hobserved⟩ := f.aftermath
  have hready := (w.prepare_of_deployable f.read_again f.deployable_again).1
  generalize w.result (applyPrerequisites s _) _ = applied at hready
  have hdecides : w.Decides f.middle (plan (w.state (w.after (prepare s) f.middle)).view s
      (w.state f.middle).operator applied.1) := ⟨_, _, _, hready, rfl⟩
  refine ⟨_, hdecides, ?_, fun hr => Rollout.outdated_congr hview hr,
    fun x hx d expected force => hdecides.force_eq hx⟩
  have hrefused : (∃ c, w.Refuses (prepare s) f.start c ∧ w.Alters (prepare s) f.middle c) ↔
      ∃ c, w.Alters (prepare s) f.middle c :=
    exists_congr fun c => and_iff_right_of_imp f.refuses_of_alters
  rw [plan_force, hgeneration, hobserved, w.changed_iff_alters hready, hrefused]
  -- unless something changes, which is a cause itself, the view is still the one between the cycles
  by_cases haltered : ∃ c, w.Alters (prepare s) f.middle c
  · simp only [haltered, true_or, or_true]
  · rw [f.state_prepare_of_unaltered haltered]
    simp only [haltered, false_or, or_false]

open Simulation

/-- Objects of some kinds are refused from now on, and all others are applied. -/
def refusing (kinds : List Kind) (c : Steady s) : Steady s :=
  ⟨{ c.1 with refusals := fun k => if k ∈ kinds then some "denied" else none }, c.2⟩

/-- The first revision is rolled out, while the service is refused. -/
def withoutService : Steady {} := (Steady.appliers {}).after (cycle {})
  (refusing [.service, .configMap] ⟨{ Steady.blank "A" with view := {} }, rfl, rfl⟩)

/-- Then the service is applied, and the deployment is refused. -/
def undeployedService : FailedRollout (Steady.appliers {}) where
  start := refusing [.configMap, .deployment] withoutService
  operator := withoutService.1.operator
  changed := true
  errors := [Cluster.internalFailure "denied"]
  error := Cluster.internalFailure "denied"
  ready := by decide +kernel
  failed := by decide +kernel
  read := ⟨((Steady.appliers {}).after (cycle {}) (refusing [.configMap, .deployment] withoutService)).1.operator,
    by decide +kernel⟩

def firstDeployment : Deployment :=
  Cluster.rolledOut withoutService.1 (Rollout.deployment {} .normal 1 (Rollout.dependencies {} {}) []) 1

theorem outdated_firstDeployment : Rollout.outdated { deployments := Cache.put ∅ firstDeployment } {} = [] := by
  have hfound : ClusterView.deployment? { deployments := Cache.put ∅ firstDeployment } {} =
      some firstDeployment := Cluster.within?_put ∅ firstDeployment rfl
  have hrecorded : Rollout.recordedDependencies firstDeployment = Rollout.dependencies {} {} :=
    (Cluster.rolledOut_realizes _ _ 1).dependencies.trans (Rollout.recordedDependencies_deployment _ _ _ _ _)
  have hsame : Rollout.dependencies { deployments := Cache.put ∅ firstDeployment } {} =
      Rollout.dependencies {} {} := Rollout.dependencies_congr rfl fun _ _ => rfl
  rw [Rollout.outdated, hfound, Option.map_some, hrecorded, hsame, Option.getD_some]
  exact Dependencies.changedFrom_eq_nil.2 rfl

/-- The service forces a rollout, which fails. The next cycle forces nothing. -/
theorem service_forgotten : undeployedService.first.force = true ∧
    ∃ next, (Steady.appliers {}).Decides undeployedService.middle next ∧ next.force = false := by
  have hready : (Steady.appliers {}).result (prepare {}) undeployedService.middle =
      .ready undeployedService.middle.1.operator false [Cluster.internalFailure "denied"] := by decide +kernel
  have hobserved : undeployedService.middle.1.operator.generation =
      undeployedService.middle.1.operator.statusOrEmpty.observedGeneration := by decide +kernel
  have hview : ((Steady.appliers {}).state
      ((Steady.appliers {}).after (prepare {}) undeployedService.middle)).view =
        { deployments := Cache.put ∅ firstDeployment } := rfl
  refine ⟨by decide +kernel, _, ⟨_, _, _, hready, rfl⟩, Bool.eq_false_iff.2 fun h => ?_⟩
  rw [plan_force, hview, outdated_firstDeployment] at h
  rcases h with hgeneration | hchanged | hnone
  · exact hgeneration hobserved
  · exact Bool.false_ne_true hchanged
  · exact hnone rfl

end FailedRollout

end RolloutControl
