import Mathlib.Logic.Function.Iterate
import RolloutControl.Proofs.Simulation.Health
import RolloutControl.Proofs.Workload.Settling
/-! Cycles that have nothing left to do. The second of two cycles that complete leaves the cluster calm, and a
calm cluster stays as it is: nothing is changed, written or told by any later cycle, and all of them end
alike. -/

namespace RolloutControl

/-- The call neither changes anything nor tells anybody. -/
def Call.Idle : (c : Call) → c.Answer → Prop
  | .writeSpec _ _, _ | .writeStatus _ _, _ | .applySecret _, _ | .publish _, _ => False
  | .applyManifest _, x | .applyConfigMap _, x => x = .ok false
  | .applyDeployment _ _ force, x => force = false ∧ ∃ d, x = .ok (d, false)
  | .view, _ | .clock, _ | .getOperator, _ | .probe _, _ | .sleep _, _ => True

namespace Collaborators

variable {s : Settings} {σ α β : Type} (w : Collaborators s σ)

def Idles (p : Program α) (a : σ) : Prop := ∀ x ∈ p.trace w.answer a, x.call.Idle x.answer

theorem idles_ask (c : Call) (a : σ) : w.Idles (Program.ask c) a ↔ c.Idle (w.answer c a).1 := by
  simp [Idles]

@[simp] theorem idles_pure (x : α) (a : σ) : w.Idles (pure x) a := by simp [Idles]

@[simp] theorem idles_bind (p : Program α) (f : α → Program β) (a : σ) :
    w.Idles (p >>= f) a ↔ w.Idles p a ∧ w.Idles (f (w.result p a)) (w.after p a) := by
  simp [Idles, result, after, or_imp, forall_and]

@[simp] theorem idles_view (a : σ) : w.Idles view a := (w.idles_ask .view a).2 trivial

def Looks (c : Call) : Prop := ∀ x : c.Answer, c.Idle x

theorem idles_of_looks {p : Program α} (hp : p.Uses Looks) (a : σ) : w.Idles p a :=
  fun _ hx => hp.mem_trace w.answer hx _

end Collaborators

namespace Keepers

open Workload

variable {s : Settings} {σ α : Type} (w : Keepers s σ)

def report (a : σ) (d : Deployment) : Report :=
  successReport s (w.state a).operator (renderErrors (w.state a).operator.spec)
    (d, (w.state a).operator.statusOrEmpty.latestRevision)
    (verdict s (w.state a).view.apiServices (w.discovered a) d)

/-- Nothing is left to be done, written or told, and whatever is asked for is answered. -/
structure Calm (a : σ) : Prop extends w.Standing a where
  revision : (w.state a).operator.statusOrEmpty.latestRevision ≠ 0
  reported : ∀ d, (w.state a).view.deployment? s = some d → ∀ now,
    (w.report a d).status s (w.state a).operator now (w.state a).operator.statusOrEmpty =
      (w.state a).operator.statusOrEmpty
  reads : w.Answers a .getOperator
  applies : ∀ c ∈ prerequisites s (w.state a).operator.spec, w.Answers a c
  deploys : ∀ d expected force, w.Answers a (.applyDeployment d expected force)

/-- A cycle that finds the cluster settled has nothing new to report afterwards. -/
theorem Settled.reported {a : σ} {p : Plan} {d : Deployment} (hsettled : w.Settled a)
    (hdone : w.Accomplishes a p d) (now' : Instant) :
    let b := w.after (cycle s) a
    (w.report b d).status s (w.state b).operator now' (w.state b).operator.statusOrEmpty =
      (w.state b).operator.statusOrEmpty := by
  obtain ⟨now, hstatus⟩ := hdone.status
  have hobserved : (w.state (w.after (cycle s) a)).operator.statusOrEmpty.observedGeneration =
      (w.state a).operator.statusOrEmpty.observedGeneration := by
    rw [← hdone.observed, hdone.generation, hsettled.observed]
  have hrecorded : (d.metadata.generation <|> recordedGeneration s (w.state (w.after (cycle s) a)).operator) =
      (d.metadata.generation <|> recordedGeneration s (w.state a).operator) := by
    cases hd : d.metadata.generation with
    | some generation => rfl
    | none =>
      have hgenerations : (w.state (w.after (cycle s) a)).operator.statusOrEmpty.generations =
          (w.state a).operator.statusOrEmpty.generations := by
        rw [hstatus]
        exact successReport_generations now (w.state a).operator.statusOrEmpty hd
      simp only [recordedGeneration, hgenerations]
  have hreport : w.report (w.after (cycle s) a) d =
      successReport s (w.state a).operator (renderErrors (w.state a).operator.spec) (d, p.revision)
        (verdict s (w.state a).view.apiServices (w.discovered a) d) := by
    simp only [report, successReport, hdone.spec, hdone.latest, hdone.apiServices, w.discovered_after, hrecorded]
  dsimp only
  rw [hreport, hstatus]
  apply Report.status_again _ rfl rfl hdone.generation
  simp only [Report.conditions, hdone.generation, hobserved]

/-- A cycle that finds the cluster settled leaves it calm. -/
theorem calm_of_completes (hfree : ∀ r, Rollout.snapshotName s r ∉ s.objects.dependencySecrets) {a : σ}
    (hsettled : w.Settled a) (h : w.Completes (cycle s) a) : w.Calm (w.after (cycle s) a) := by
  obtain ⟨p, d, hdone⟩ := w.accomplishes_of_completes hsettled.deployable h
  obtain ⟨hprepared, hp⟩ := hsettled.accomplishes hdone
  obtain ⟨hreads, happlies, hdeploys⟩ := w.answers_of_completes hsettled.deployable h
  have hrevision : p.revision ≠ 0 := by
    rw [hp, hsettled.plan_revision]
    split
    · decide
    · assumption
  refine ⟨w.standing_of_completes hfree hsettled.deployable h, ?_, ?_, hreads, ?_, hdeploys⟩
  · rw [hdone.latest]
    exact hrevision
  · intro d' hd'
    obtain rfl : d = d' := Option.some.inj (hdone.found.symm.trans hd')
    exact hsettled.reported w hdone
  · rw [hdone.spec]
    exact happlies

/-- The program ends like this, and neither changes nor tells anything. -/
structure Rests (q : Program α) (b : σ) (x : α) : Prop where
  result : w.result q b = x
  state : w.state (w.after q b) = w.state b
  idle : w.Idles q b

/-- Nor does it change anything by the deployment that it applies. -/
structure Deploys (q : Program α) (b : σ) (x : α) (wanted : Deployment) (recorded : Option Int)
    (d : Deployment) : Prop where
  rests : w.Rests q b x
  applies : w.Applies q b wanted recorded false d

section Rests
variable {w} {β : Type} {q : Program α} {f : α → Program β} {b : σ} {x : α} {y : β} {wanted d : Deployment}
  {recorded : Option Int}

theorem Rests.bind (h : w.Rests q b x) (hf : w.Rests (f x) (w.after q b) y) : w.Rests (q >>= f) b y where
  result := by rw [Collaborators.result_bind, h.result, hf.result]
  state := by rw [Collaborators.after_bind, h.result, hf.state, h.state]
  idle := by
    rw [Collaborators.idles_bind, h.result]
    exact ⟨h.idle, hf.idle⟩

theorem rests_pure (x : α) (b : σ) : w.Rests (pure x) b x := ⟨rfl, rfl, w.idles_pure x b⟩

theorem rests_view (b : σ) : w.Rests view b (w.state b).view :=
  ⟨w.result_view b, w.state_after_view b, w.idles_view b⟩

theorem Rests.bind_deploys (h : w.Rests q b x) (hf : w.Deploys (f x) (w.after q b) y wanted recorded d) :
    w.Deploys (q >>= f) b y wanted recorded d where
  rests := h.bind hf.rests
  applies := by
    apply Collaborators.Applies.bind_right
    rw [h.result]
    exact hf.applies

theorem Deploys.bind_rests (h : w.Deploys q b x wanted recorded d) (hf : w.Rests (f x) (w.after q b) y) :
    w.Deploys (q >>= f) b y wanted recorded d where
  rests := h.rests.bind hf
  applies := h.applies.bind_left f

end Rests

theorem uses_applyAll_items (s : Settings) (spec : OperatorSpec) :
    (applyAll (items s spec)).Uses fun c => c ∈ prerequisites s spec := by
  apply uses_applyAll
  intro e he
  rcases item_cases he with ⟨m, hm, h⟩ | ⟨rendered, hrender, h⟩ | ⟨x, -, h⟩
  · exact h ▸ .ask (mem_prerequisites.2 (.inl ⟨m, hm, rfl⟩))
  · exact h ▸ .ask (mem_prerequisites.2 (.inr ⟨rendered, hrender, rfl⟩))
  · exact h ▸ .pure _

theorem idle_of_prerequisite {c : Call} (hc : IsPrerequisite s c) {x : c.Answer} (hfailed : ¬c.Failed x)
    (hchanged : ¬c.Changed x) : c.Idle x := by
  obtain ⟨m, rfl⟩ | ⟨rendered, rfl⟩ := hc.cases <;>
    (rcases x with e | _ | _
     · exact absurd trivial hfailed
     · rfl
     · exact absurd trivial hchanged)

theorem looks_probeAll (l : List String) : (probeAll l).Uses Collaborators.Looks := by
  induction l with
  | nil => exact .pure []
  | cons gv r ih => exact .bind (.ask fun _ => trivial) fun _ => .bind ih fun _ => .pure _

theorem looks_availability (s : Settings) (current : Option Deployment) :
    (availability s current).Uses Collaborators.Looks := by
  cases current with
  | none => exact .pure _
  | some d =>
    simp only [availability]
    split
    · exact .pure _
    · refine .bind (.ask fun _ => trivial) fun v => ?_
      split
      · exact .pure _
      · exact .bind (looks_probeAll _) fun _ => .pure _

theorem idle_applyAll_items {spec : OperatorSpec} {b : σ}
    (hplace : ∀ c ∈ Workload.prerequisites s spec, w.inPlace c b)
    (hanswers : ∀ c ∈ Workload.prerequisites s spec, w.Answers b c) :
    ∀ x ∈ (applyAll (items s spec)).trace w.answer b,
      ¬x.call.Failed x.answer ∧ ¬x.call.Changed x.answer ∧ x.call.Idle x.answer := by
  intro x hx
  have hc := (uses_applyAll_items s spec).mem_trace w.answer hx
  have hprerequisite : IsPrerequisite s x.call := ⟨spec, hc⟩
  obtain ⟨hanswer, -⟩ := Program.step_of_mem_trace w.answer hx
  have hbefore : w.inPlace x.call x.before :=
    ((uses_applyAll_items s spec).mono fun c' hc' => not_displaces_of_mem hc hc').before_of_mem w.answer
      (fun c' d hc' hd => w.kept x.call c' d hprerequisite hd hc') (hplace x.call hc) hx
  have hok : ¬x.call.Failed x.answer := by
    rw [hanswer]
    exact w.answers_before hprerequisite.lasting (hanswers x.call hc) hx
  have hunchanged : ¬x.call.Changed x.answer := by
    rw [hanswer]
    exact w.settled x.call x.before hprerequisite hbefore
  exact ⟨hok, hunchanged, idle_of_prerequisite hprerequisite hok hunchanged⟩

theorem applyPrerequisites_of_unchanged {spec : OperatorSpec} {b : σ}
    (h : ∀ x ∈ (applyAll (items s spec)).trace w.answer b, ¬x.call.Changed x.answer) :
    (w.result (applyPrerequisites s spec) b).1 = false ∧
      (applyPrerequisites s spec).trace w.answer b = (applyAll (items s spec)).trace w.answer b := by
  have hnone : (w.result (applyAll (items s spec)) b).1 = [] := by
    by_contra hsome
    obtain ⟨x, hx, hchanged⟩ := (w.applyAll_alters (fun e he => he) b).2 hsome
    exact h x hx hchanged
  have hwhole : applyPrerequisites s spec = applyAll (items s spec) >>= fun x =>
      publishAll (x.1.map fun kind =>
        .normal (kind ++ "Updated") ("Applied " ++ kind ++ " for " ++ s.deploymentName)) >>= fun _ =>
      pure (!x.1.isEmpty, x.2) := rfl
  have hrun : ((applyAll (items s spec)).run w.answer b).1.1 = [] := hnone
  rw [hwhole]
  constructor
  · rw [Collaborators.result_bind, Collaborators.result_bind, Collaborators.result_pure, hnone]
    rfl
  · rw [Program.trace_bind, hrun]
    simp [publishAll]

section Calm
variable {w} {a : σ} (h : w.Calm a)

include h

theorem Calm.read : w.result (Program.ask .getOperator) a = .ok (w.state a).operator :=
  w.read_of_answers h.reads

theorem Calm.prerequisites :
    w.result (applyPrerequisites s (w.state a).operator.spec) (w.after (Program.ask .getOperator) a) =
        (false, renderErrors (w.state a).operator.spec) ∧
      w.Idles (applyPrerequisites s (w.state a).operator.spec) (w.after (Program.ask .getOperator) a) := by
  have hplace : ∀ c ∈ Workload.prerequisites s (w.state a).operator.spec,
      w.inPlace c (w.after (Program.ask .getOperator) a) :=
    fun c hc => w.inPlace_after ⟨_, hc⟩ (.ask id) (h.inPlace c hc)
  have hanswers : ∀ c ∈ Workload.prerequisites s (w.state a).operator.spec,
      w.Answers (w.after (Program.ask .getOperator) a) c :=
    fun c hc => w.answers_after (IsPrerequisite.lasting ⟨_, hc⟩) (Program.ask .getOperator) (h.applies c hc)
  have hidle := w.idle_applyAll_items hplace hanswers
  obtain ⟨hfirst, htrace⟩ := w.applyPrerequisites_of_unchanged fun x hx => (hidle x hx).2.1
  rw [← htrace] at hidle
  have herrors := w.errors_applyPrerequisites fun x hx hfailed => absurd hfailed (hidle x hx).1
  exact ⟨Prod.ext hfirst herrors, fun x hx => (hidle x hx).2.2⟩

theorem Calm.rests_prepare :
    w.Rests (prepare s) a (.ready (w.state a).operator false (renderErrors (w.state a).operator.spec)) := by
  obtain ⟨happlied, hidle⟩ := h.prerequisites
  obtain ⟨hresult, -, htrace⟩ := w.prepare_of_deployable h.read h.deployable
  rw [happlied] at hresult
  refine ⟨hresult, (h.prepared h.read).2, fun x hx => ?_⟩
  rw [htrace] at hx
  rcases List.mem_append.1 hx with hx | hx
  · obtain rfl := List.mem_singleton.1 hx
    trivial
  · exact hidle x hx

end Calm

section Matching
variable {w} {operator : OperatorResource} {recorded : Option Int} {p : Plan} {d : Deployment} {b : σ}

theorem deploy_of_matches {wanted : Deployment} (href : objectRef wanted = deploymentRef s)
    (hfound : (w.state b).view.deployment? s = some d) (hmatches : d.Matches wanted) (hforce : p.force = false)
    (hanswers : w.Answers b (.applyDeployment wanted recorded false)) :
    w.Deploys (deploy s recorded p wanted) b (.ok d) wanted recorded d := by
  obtain ⟨hanswer, hstate⟩ := w.undisturbed wanted recorded b d href hfound hmatches hanswers
  have hidle : w.Idles (Program.ask (.applyDeployment wanted recorded false)) b :=
    (w.idles_ask (.applyDeployment wanted recorded false) b).2 ⟨rfl, d, hanswer⟩
  have happlies : w.Applies (Program.ask (.applyDeployment wanted recorded false)) b wanted recorded false d := by
    refine ⟨b, (w.answer (.applyDeployment wanted recorded false) b).2, false, ?_⟩
    rw [← hanswer]
    exact List.mem_singleton_self _
  have hasks : w.Deploys (Program.ask (.applyDeployment wanted recorded false)) b (.ok (d, false)) wanted
      recorded d := ⟨⟨hanswer, hstate, hidle⟩, happlies⟩
  rw [deploy, hforce]
  exact hasks.bind_rests (rests_pure _ _)

theorem execute_of_matches (hfound : (w.state b).view.deployment? s = some d)
    (hmatches : d.Matches (p.wanted s operator.spec (w.state b).view)) (hforce : p.force = false)
    (hrevision : p.revision = operator.statusOrEmpty.latestRevision)
    (hanswers : w.Answers (w.after view b)
      (.applyDeployment (p.wanted s operator.spec (w.state b).view) recorded false)) :
    w.Deploys (execute s operator recorded p) b (.ok (d, p.revision))
      (p.wanted s operator.spec (w.state b).view) recorded d := by
  have hlooked := w.state_after_view b
  have hdeploys : w.Deploys (deploy s recorded p (p.wanted s operator.spec (w.state b).view)) (w.after view b)
      (.ok d) (p.wanted s operator.spec (w.state b).view) recorded d := by
    apply deploy_of_matches rfl _ hmatches hforce hanswers
    rw [hlooked]
    exact hfound
  have happlies : w.Deploys (applyPlan s operator recorded p) b (.ok d)
      (p.wanted s operator.spec (w.state b).view) recorded d := by
    rw [applyPlan_eq_deploy]
    exact (rests_view b).bind_deploys hdeploys
  rw [execute, if_pos hrevision, carryOut]
  exact happlies.bind_rests (rests_pure _ _)

theorem conclude_of_same {errors : List Error} {applied : Applied}
    (hreads : w.Answers b .getOperator)
    (hreport : ∀ now, (successReport s (w.state b).operator errors applied
      (verdict s (w.state b).view.apiServices (w.discovered b) applied.1)).status s (w.state b).operator now
        (w.state b).operator.statusOrEmpty = (w.state b).operator.statusOrEmpty) :
    w.Rests (conclude s (w.state b).operator errors (.ok applied)) b
      (ending s errors (w.state b).operator.statusOrEmpty) := by
  generalize hoperator : (w.state b).operator = operator at hreport ⊢
  have hlooks : w.Idles (assess s operator (some applied, errors)) b := by
    apply Collaborators.idles_of_looks
    exact .bind (.pure _) fun current => .bind (looks_availability s current) fun _ => .pure _
  have hassesses : w.Rests (assess s operator (some applied, errors)) b (successReport s operator errors applied
      (verdict s (w.state b).view.apiServices (w.discovered b) applied.1)) :=
    ⟨w.result_assess operator errors applied b, w.state_after_reading (uses_assess s operator _) b, hlooks⟩
  generalize hr : successReport s operator errors applied _ = r at hreport hassesses
  have herrors : r.errors = errors := by rw [← hr]; rfl
  have hanswers := w.answers_after (c := .getOperator) trivial (assess s operator (some applied, errors)) hreads
  have hcloses {c : σ} (hstate : w.state c = w.state b) (hreads : w.Answers c .getOperator) :
      w.Rests (close s operator r) c (ending s errors operator.statusOrEmpty) := by
    have hread := w.read_of_answers hreads
    have hsame : (w.state c).operator = operator := by rw [hstate, hoperator]
    rw [← hsame] at hreport
    obtain ⟨hresult, hkept, htrace⟩ := w.updateStatus_of_same hread hreport
    rw [hsame] at hresult hkept htrace
    have hidle : w.Idles (updateStatus (r.status s operator)) c := by
      intro x hx
      have hlook : Collaborators.Looks x.call := by
        rcases htrace x hx with hcall | hcall <;> rw [hcall] <;> exact fun _ => trivial
      exact hlook x.answer
    have hupdates : w.Rests (updateStatus (r.status s operator)) c (.ok (operator.statusOrEmpty, false)) :=
      ⟨hresult, hkept, hidle⟩
    rw [close_eq, herrors]
    exact hupdates.bind (rests_pure _ _)
  exact hassesses.bind (hcloses hassesses.state hanswers)

end Matching

theorem Standing.deploys_rollOut {w : Keepers s σ} {a b : σ} (h : w.Standing a)
    (hlatest : (w.state a).operator.statusOrEmpty.latestRevision ≠ 0) (hstate : w.state b = w.state a)
    {recorded : Option Int}
    (hanswers : w.Answers (w.after view (w.after view b)) (.applyDeployment (w.wanted a) recorded false)) :
    ∃ d, (w.state a).view.deployment? s = some d ∧
      w.Deploys (rollOut s (w.state a).operator false recorded) b
        (.ok (d, (w.state a).operator.statusOrEmpty.latestRevision)) (w.wanted a) recorded d := by
  obtain ⟨d, hfound, hmatches⟩ := h.deployed
  obtain ⟨hforce, hrevision, hwanted⟩ := h.plan_eq hlatest
  have hlooked : w.state (w.after view b) = w.state a := by rw [w.state_after_view, hstate]
  generalize hp : plan (w.state a).view s (w.state a).operator false = p at hforce hrevision hwanted
  rw [show (w.state a).view = (w.state (w.after view b)).view by rw [hlooked]] at hwanted
  refine ⟨d, hfound, ?_⟩
  rw [← hlooked] at hfound
  rw [← hwanted] at hmatches hanswers ⊢
  have hexecutes := execute_of_matches hfound hmatches hforce hrevision hanswers
  rw [rollOut_eq_execute, ← hrevision]
  apply (rests_view b).bind_deploys
  rw [hstate, hp]
  exact hexecutes

section Calm
variable {w} {a : σ} (h : w.Calm a)

include h

/-- A calm cluster stays as it is. -/
theorem Calm.deploys_cycle : ∃ d, w.Deploys (cycle s) a
    (ending s (renderErrors (w.state a).operator.spec) (w.state a).operator.statusOrEmpty) (w.wanted a)
    (recordedGeneration s (w.state a).operator) d := by
  have hprepares := h.rests_prepare
  have hanswers : w.Answers (w.after view (w.after view (w.after (prepare s) a)))
      (.applyDeployment (w.wanted a) (recordedGeneration s (w.state a).operator) false) := by
    apply w.answers_after (c := .applyDeployment _ _ _) trivial
    apply w.answers_after (c := .applyDeployment _ _ _) trivial
    exact w.answers_after (c := .applyDeployment _ _ _) trivial (prepare s) (h.deploys _ _ _)
  obtain ⟨d, hfound, hrolls⟩ := h.deploys_rollOut h.revision hprepares.state hanswers
  refine ⟨d, ?_⟩
  rw [cycle_eq_prepare]
  apply hprepares.bind_deploys
  rw [resume]
  apply hrolls.bind_rests
  generalize hb : w.after (rollOut s (w.state a).operator false
    (recordedGeneration s (w.state a).operator)) (w.after (prepare s) a) = b
  have hstate : w.state b = w.state a := by rw [← hb, hrolls.rests.state, hprepares.state]
  have hdiscovered : w.discovered b = w.discovered a := by rw [← hb, w.discovered_after, w.discovered_after]
  have hreads : w.Answers b .getOperator := by
    rw [← hb]
    apply w.answers_after (c := .getOperator) trivial
    exact w.answers_after (c := .getOperator) trivial (prepare s) h.reads
  rw [← hstate]
  apply conclude_of_same hreads
  rw [hstate, hdiscovered]
  exact h.reported d hfound

theorem Calm.after_cycle : w.Calm (w.after (cycle s) a) := by
  obtain ⟨d, hdeploys⟩ := h.deploys_cycle
  have hstate := hdeploys.rests.state
  have hdiscovered := w.discovered_after (cycle s) a
  have hplaced : ∀ c ∈ Workload.prerequisites s (w.state a).operator.spec, w.inPlace c (w.after (cycle s) a) := by
    intro c hc
    have hprerequisite : IsPrerequisite s c := ⟨_, hc⟩
    have hread : w.inPlace c (w.after (Program.ask .getOperator) a) :=
      w.inPlace_after hprerequisite (.ask id) (h.inPlace c hc)
    obtain ⟨-, hafter, -⟩ := w.prepare_of_deployable h.read h.deployable
    apply w.inPlace_cycle hprerequisite
    rw [hafter]
    exact w.inPlace_after hprerequisite (Appliers.not_displaces_applyPrerequisites hc) hread
  refine ⟨⟨⟨?_, ?_, ?_, ?_⟩, ?_⟩, ?_, ?_, ?_, ?_, ?_⟩
  · rw [hstate]
    exact h.deployable
  · rw [hstate]
    exact h.observed
  · rw [hstate]
    exact hplaced
  · rw [hstate]
    exact h.current
  · simp only [wanted, hstate]
    exact h.deployed
  · rw [hstate]
    exact h.revision
  · simp only [report, hstate, hdiscovered]
    exact h.reported
  · exact w.answers_after (c := .getOperator) trivial (cycle s) h.reads
  · rw [hstate]
    exact fun c hc => w.answers_after (IsPrerequisite.lasting ⟨_, hc⟩) (cycle s) (h.applies c hc)
  · exact fun d expected force => w.answers_after (c := .applyDeployment d expected force) trivial (cycle s)
      (h.deploys d expected force)

end Calm

end Keepers

/-- Two cycles that complete, one after the other, with nothing else going on. However many more may follow. -/
structure Settlement {s : Settings} {σ : Type} (w : Keepers s σ) where
  start : σ
  deployable : Workload.Deployable (w.state start).operator.spec
  apart : ∀ r, Rollout.snapshotName s r ∉ s.objects.dependencySecrets
  first : w.Completes (Workload.cycle s) start
  second : w.Completes (Workload.cycle s) (w.after (Workload.cycle s) start)

namespace Settlement

open Workload

variable {s : Settings} {σ : Type} {w : Keepers s σ} (run : Settlement w)

/-- What a cycle finds. -/
def before (n : Nat) : σ := (w.after (cycle s))^[n] run.start

theorem before_succ (n : Nat) : run.before (n + 1) = w.after (cycle s) (run.before n) :=
  Function.iterate_succ_apply' (w.after (cycle s)) n run.start

theorem settled : w.Settled (run.before 1) := w.settled_of_completes run.apart run.deployable run.first

theorem calm (n : Nat) : w.Calm (run.before (n + 2)) := by
  induction n with
  | zero => exact w.calm_of_completes run.apart run.settled run.second
  | succ n ih =>
    rw [before_succ]
    exact ih.after_cycle

theorem state_before (n : Nat) : w.state (run.before (n + 2)) = w.state (run.before 2) := by
  induction n with
  | zero => rfl
  | succ n ih =>
    obtain ⟨d, hdeploys⟩ := (run.calm n).deploys_cycle
    rw [before_succ, hdeploys.rests.state, ih]

theorem result_second : w.result (cycle s) (run.before 1) =
    ending s (renderErrors (w.state (run.before 2)).operator.spec) (w.state (run.before 2)).operator.statusOrEmpty := by
  obtain ⟨p, d, hdone⟩ := w.accomplishes_of_completes run.settled.deployable run.second
  have hspec : (w.state (run.before 2)).operator.spec = (w.state (run.before 1)).operator.spec := hdone.spec
  rw [hspec]
  exact hdone.result

/-- A third and every later cycle applies the deployment of the recorded revision without forcing its rollout.
It neither changes, writes nor tells anything, and ends as the second one has ended. -/
theorem later_cycles_change_nothing (run : Settlement w) (n : Nat) :
    (∃ d, w.Applies (cycle s) (run.before (n + 2)) (w.wanted (run.before (n + 2)))
      (recordedGeneration s (w.state (run.before (n + 2))).operator) false d) ∧
      w.Idles (cycle s) (run.before (n + 2)) ∧
      w.state (w.after (cycle s) (run.before (n + 2))) = w.state (run.before (n + 2)) ∧
      w.result (cycle s) (run.before (n + 2)) = w.result (cycle s) (run.before 1) := by
  obtain ⟨d, hdeploys⟩ := (run.calm n).deploys_cycle
  have hresult := hdeploys.rests.result
  rw [run.state_before n, ← run.result_second] at hresult
  exact ⟨⟨d, hdeploys.applies⟩, hdeploys.rests.idle, hdeploys.rests.state, hresult⟩

open Simulation

def ofBare : Settlement (Steady.keepers {}) where
  start := Steady.bare
  deployable := ⟨rfl, _, rfl, rfl⟩
  apart := Steady.snapshotName_not_dependency
  first := Collaborators.completes_of_manages _ (Steady.smooth_cycle {} Steady.bare Steady.healthy_bare)
  second := Collaborators.completes_of_manages _
    (Steady.smooth_cycle {} _ (Steady.healthy_after Steady.healthy_bare (cycle {})))

theorem bare_cluster_settles : (Steady.keepers {}).WritesStatus (cycle {}) (ofBare.before 0) ∧
    (Steady.keepers {}).Idles (cycle {}) (ofBare.before 2) :=
  ⟨by decide +kernel, (ofBare.later_cycles_change_nothing 0).2.1⟩

end Settlement

end RolloutControl
