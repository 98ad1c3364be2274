import RolloutControl.Proofs.Simulation.Keeping
import RolloutControl.Proofs.Observe.Sequel
/-! A cluster in memory in which nothing is in the way. Every write in it follows a read with nothing in
between, so no cycle meets a failure but those of discovery, and things stay like that. -/

namespace RolloutControl.Simulation

open Workload

/-- Nothing has been told to fail. -/
structure Cluster.Healthy (c : Cluster) : Prop where
  refusals : ∀ kind, c.refusals kind = none
  failures : c.failures = []
  conflicts : c.conflicts = 0
  versioned : c.operator.metadata.resourceVersion.isSome

namespace Steady

open Cluster

variable {s : Settings} {α : Type}

theorem NoWorse.healthy {b c : Cluster} (h : NoWorse b c) (hc : c.Healthy) : b.Healthy where
  refusals kind := by rw [h.refusals, hc.refusals]
  failures := by
    apply List.eq_nil_iff_forall_not_mem.2
    intro f hf
    simpa [hc.failures] using h.failures f hf
  conflicts := by
    have hle := h.conflicts
    rw [hc.conflicts] at hle
    omega
  versioned := h.versioned hc.versioned

theorem healthy_after {c : Steady s} (h : c.1.Healthy) (p : Program α) : ((keepers s).after p c).1.Healthy :=
  p.uses_any.run_preserves (keepers s).answer (P := fun c => c.1.Healthy)
    (fun call c _ hc => (answer_noWorse call c).healthy hc) h

def Unguarded (c : Call) : Prop := ¬c.IsSpecWrite ∧ ¬c.IsStatusWrite

theorem not_failed_of_healthy {c : Steady s} (h : c.1.Healthy) {call : Call} (hcall : Unguarded call)
    (hprobe : ¬call.IsProbe) : ¬call.Failed (answer call c.1).1 := by
  have hhindered (hlasting : call.Lasting) (hfree : ¬c.1.Hindered call) : ¬call.Failed (answer call c.1).1 :=
    fun hfailed => hfree ((failed_iff c.2.2 hlasting).1 hfailed)
  cases call with
  | writeSpec => exact absurd trivial hcall.1
  | writeStatus => exact absurd trivial hcall.2
  | probe => exact absurd trivial hprobe
  | applySecret x => simp [answer, applyTo, h.refusals, Call.Failed]
  | getOperator => exact hhindered trivial (by simp [Hindered, h.failures])
  | applyManifest | applyConfigMap | applyDeployment => exact hhindered trivial (by simp [Hindered, h.refusals])
  | view | clock | publish | sleep => exact id

theorem manages_of_unguarded {p : Program α} (hp : p.Uses Unguarded) {c : Steady s} (h : c.1.Healthy) :
    (keepers s).Manages p c := by
  intro x hx hfailed
  have hbefore : x.before.1.Healthy := p.uses_any.before_of_mem (keepers s).answer (P := fun c => c.1.Healthy)
    (fun call c _ hc => (answer_noWorse call c).healthy hc) h hx
  obtain ⟨hanswer, -⟩ := Program.step_of_mem_trace (keepers s).answer hx
  by_contra hprobe
  rw [hanswer] at hfailed
  exact not_failed_of_healthy hbefore (hp.mem_trace (keepers s).answer hx) hprobe hfailed

theorem succeeds_ask_of_healthy {c : Steady s} (h : c.1.Healthy) {call : Call} (hcall : Unguarded call)
    (hprobe : ¬call.IsProbe) : (keepers s).Succeeds (Program.ask call) c :=
  ((keepers s).succeeds_ask call c).2 (not_failed_of_healthy h hcall hprobe)

theorem result_getOperator {c : Steady s} (h : c.1.Healthy) :
    (keepers s).result (Program.ask .getOperator) c = .ok c.1.operator := by
  have hok : ¬Call.Failed .getOperator ((keepers s).answer .getOperator c).1 :=
    not_failed_of_healthy h ⟨id, id⟩ id
  exact (keepers s).read_of_answers hok

/-- What has just been read can be written. -/
theorem guarded_of_healthy {c : Cluster} (h : c.Healthy) (call : ResourceCall) (write : Cluster → Cluster) :
    c.guarded call c.operator.version write = (.ok (write c).operator, write c) := by
  have hnone : c.takeFailure call = none := by simp [takeFailure, h.failures]
  have hversion : c.operator.metadata.resourceVersion = some c.operator.version := by
    obtain ⟨version, hversion⟩ := Option.isSome_iff_exists.1 h.versioned
    rw [OperatorResource.version, hversion]
    rfl
  unfold guarded
  simp [hnone, h.conflicts, ← hversion]

section Writes
variable {c : Steady s} (h : c.1.Healthy) {operator : OperatorResource} (hsame : c.1.operator = operator)

include h hsame

theorem writeStatus_of_healthy (status : OperatorStatus) :
    (keepers s).Succeeds (Program.ask (.writeStatus operator.version status)) c ∧
      ∃ stored, (keepers s).result (Program.ask (.writeStatus operator.version status)) c = .ok stored := by
  have hdone := guarded_of_healthy h .updateStatus (Cluster.writeStatus status)
  rw [hsame] at hdone
  have hanswer : ((keepers s).answer (.writeStatus operator.version status) c).1 =
      .ok (Cluster.writeStatus status c.1).operator := congrArg Prod.fst hdone
  exact ⟨((keepers s).succeeds_ask _ c).2 (by simp [hanswer, Call.Failed]), _, hanswer⟩

theorem writeSpec_of_healthy (spec : OperatorSpec) :
    (keepers s).Succeeds (Program.ask (.writeSpec operator.version spec)) c ∧
      ∃ stored, (keepers s).result (Program.ask (.writeSpec operator.version spec)) c = .ok stored := by
  have hdone := guarded_of_healthy h .updateSpec (Cluster.writeSpec spec)
  rw [hsame] at hdone
  have hanswer : ((keepers s).answer (.writeSpec operator.version spec) c).1 =
      .ok (Cluster.writeSpec spec c.1).operator := congrArg Prod.fst hdone
  exact ⟨((keepers s).succeeds_ask _ c).2 (by simp [hanswer, Call.Failed]), _, hanswer⟩

end Writes

/-- An attempt succeeds, and nothing is left to be tried again. -/
def Finishes {β : Type} (p : Program (Attempt β)) (c : Steady s) : Prop :=
  (keepers s).Succeeds p c ∧ ∃ x, (keepers s).result p c = .finished x

theorem finishes_pure {β : Type} (x : Except Error β) (c : Steady s) : Finishes (pure (.finished x)) c :=
  ⟨(keepers s).succeeds_pure _ c, x, rfl⟩

theorem Finishes.bind {β : Type} {p : Program α} {f : α → Program (Attempt β)} {c : Steady s}
    (hp : (keepers s).Succeeds p c)
    (hf : Finishes (f ((keepers s).result p c)) ((keepers s).after p c)) : Finishes (p >>= f) c := by
  obtain ⟨hsucceeds, x, hresult⟩ := hf
  refine ⟨((keepers s).succeeds_bind p f c).2 ⟨hp, hsucceeds⟩, x, ?_⟩
  rw [Collaborators.result_bind, hresult]

theorem Finishes.succeeds_repeated {β : Type} {attempt : Program (Attempt β)} {c : Steady s}
    (h : Finishes attempt c) (n : Nat) : (keepers s).Succeeds (Attempt.repeated attempt n) c := by
  obtain ⟨hsucceeds, x, hresult⟩ := h
  cases n <;>
    simp only [Attempt.repeated, Collaborators.succeeds_bind, hresult] <;>
    exact ⟨hsucceeds, (keepers s).succeeds_pure x _⟩

theorem state_asked (c : Steady s) :
    ((keepers s).after (Program.ask .getOperator) c).1.operator = c.1.operator :=
  congrArg ClusterState.operator ((keepers s).state_reading (c := .getOperator) trivial c)

theorem statusAttempt_finishes (change : Instant → OperatorStatus → OperatorStatus) {c : Steady s}
    (h : c.1.Healthy) : Finishes (statusAttempt change) c := by
  have hasked := state_asked c
  have hhealthy := healthy_after h (Program.ask .getOperator)
  refine .bind (succeeds_ask_of_healthy h ⟨id, id⟩ id) ?_
  rw [result_getOperator h]
  generalize (keepers s).after (Program.ask .getOperator) c = d at hasked hhealthy
  have htimed : ((keepers s).after (Program.ask .clock) d).1.operator = d.1.operator :=
    congrArg ClusterState.operator ((keepers s).state_reading (c := .clock) trivial d)
  have hhealthy' := healthy_after hhealthy (Program.ask .clock)
  refine .bind (succeeds_ask_of_healthy hhealthy ⟨id, id⟩ id) ?_
  generalize (keepers s).after (Program.ask .clock) d = e at htimed hhealthy'
  dsimp only
  split
  · exact finishes_pure _ e
  · obtain ⟨hsucceeds, stored, hstored⟩ := writeStatus_of_healthy hhealthy' (htimed.trans hasked) _
    refine .bind hsucceeds ?_
    rw [hstored]
    exact finishes_pure _ _

theorem observedConfigAttempt_finishes (d : Document) {c : Steady s} (h : c.1.Healthy) :
    Finishes (observedConfigAttempt d) c := by
  have hasked := state_asked c
  have hhealthy := healthy_after h (Program.ask .getOperator)
  refine .bind (succeeds_ask_of_healthy h ⟨id, id⟩ id) ?_
  rw [result_getOperator h]
  generalize (keepers s).after (Program.ask .getOperator) c = e at hasked hhealthy
  cases hread : Document.ofJson c.1.operator.spec.observedConfig with
  | error x =>
    simp only [hread]
    exact finishes_pure _ e
  | ok previous =>
    simp only [hread]
    split
    · exact finishes_pure _ e
    · obtain ⟨hsucceeds, stored, hstored⟩ := writeSpec_of_healthy hhealthy hasked _
      refine .bind hsucceeds ?_
      rw [hstored]
      exact finishes_pure _ _

/-- Wherever nothing is in the way, the program meets no failure but those of discovery. -/
def Smooth (s : Settings) (p : Program α) : Prop := ∀ c : Steady s, c.1.Healthy → (keepers s).Manages p c

theorem smooth_of_succeeds {p : Program α} (h : ∀ c : Steady s, c.1.Healthy → (keepers s).Succeeds p c) :
    Smooth s p :=
  fun c hc x hx hfailed => absurd hfailed (h c hc x hx)

theorem smooth_pure (x : α) : Smooth s (pure x) := smooth_of_succeeds fun c _ => (keepers s).succeeds_pure x c

theorem Smooth.bind {β : Type} {p : Program α} {f : α → Program β} (hp : Smooth s p) (hf : ∀ x, Smooth s (f x)) :
    Smooth s (p >>= f) := fun c hc =>
  ((keepers s).manages_bind p f c).2 ⟨hp c hc, hf _ _ (healthy_after hc p)⟩

theorem smooth_of_unguarded {p : Program α} (hp : p.Uses Unguarded) : Smooth s p :=
  fun _ hc => manages_of_unguarded hp hc

theorem unguarded_of_reading {c : Call} (h : Collaborators.Reading c) : Unguarded c := by
  cases c with
  | writeSpec | writeStatus => exact h.elim
  | _ => exact ⟨id, id⟩

theorem smooth_of_reading {p : Program α} (hp : p.Uses Collaborators.Reading) : Smooth s p :=
  smooth_of_unguarded (hp.mono fun _ => unguarded_of_reading)

theorem smooth_updateStatus (change : Instant → OperatorStatus → OperatorStatus) :
    Smooth s (updateStatus change) :=
  smooth_of_succeeds fun _ hc => (statusAttempt_finishes change hc).succeeds_repeated Attempt.retries

theorem smooth_updateObservedConfig (d : Document) : Smooth s (updateObservedConfig d) :=
  smooth_of_succeeds fun _ hc => (observedConfigAttempt_finishes d hc).succeeds_repeated Attempt.retries

theorem smooth_conclude (operator : OperatorResource) (errors : List Error) (rolled : Except Error Applied) :
    Smooth s (conclude s operator errors rolled) := by
  refine .bind (smooth_of_reading (uses_announce s errors rolled)) fun outcome => ?_
  refine .bind (smooth_of_reading (uses_assess s operator outcome)) fun report => ?_
  refine .bind (smooth_updateStatus _) fun x => ?_
  rcases x with e | ⟨status, -⟩
  · exact smooth_pure _
  · dsimp only
    split <;> exact smooth_pure _

/-- Where nothing is in the way, every cycle of the workload manages. -/
theorem smooth_cycle (s : Settings) : Smooth s (cycle s) := by
  have hprepares : (prepare s).Uses Unguarded := (uses_prepare s).mono fun c hc => by
    rcases hc with hc | hc
    · obtain ⟨m, rfl⟩ | ⟨rendered, rfl⟩ := hc.cases <;> exact ⟨id, id⟩
    · exact unguarded_of_reading hc
  have hexecutes (operator : OperatorResource) (recorded : Option Int) (p : Plan) :
      (execute s operator recorded p).Uses Unguarded := (uses_execute s operator recorded p).mono fun c hc => by
    cases c with
    | writeSpec | writeStatus => exact hc.elim
    | _ => exact ⟨id, id⟩
  rw [cycle_eq_prepare]
  refine .bind (smooth_of_unguarded hprepares) fun prepared => ?_
  cases prepared with
  | failed e => exact smooth_pure _
  | unmanaged => exact smooth_pure _
  | waiting =>
    refine .bind (smooth_updateStatus _) fun x => ?_
    cases x <;> exact smooth_pure _
  | ready operator changed errors =>
    refine .bind ?_ fun rolled => smooth_conclude operator errors rolled
    rw [rollOut_eq_execute]
    exact .bind (smooth_of_reading (.ask trivial)) fun v => smooth_of_unguarded (hexecutes operator _ _)

/-- So does every cycle of the observers. -/
theorem smooth_observe (observers : List Observer) (order : List Nat) :
    Smooth s (Observer.cycle observers s order) := by
  rw [Observer.cycle_eq]
  refine .bind (smooth_of_reading (.ask trivial)) fun x => ?_
  cases x with
  | error e => exact smooth_pure _
  | ok operator =>
    dsimp only
    split
    · exact smooth_pure _
    · split
      · exact smooth_pure _
      · next existing _ =>
        refine .bind (smooth_of_reading (.ask trivial)) fun v => ?_
        refine .bind (smooth_of_reading (Collaborators.reading_publishAll _)) fun _ => ?_
        refine .bind ?_ fun failed => .bind (smooth_updateStatus _) fun x => ?_
        · unfold Observer.storeIfNew
          split
          · exact smooth_pure _
          · refine .bind (smooth_updateObservedConfig _) fun x => ?_
            rcases x with e | ⟨previous, _ | _⟩
            · exact .bind (smooth_of_reading (.ask trivial)) fun _ => smooth_pure _
            · exact smooth_pure _
            · exact .bind (smooth_of_reading (.ask trivial)) fun _ => smooth_pure _
        · cases x <;> exact smooth_pure _

theorem succeeds_observe (observers : List Observer) (order : List Nat) {c : Steady s} (h : c.1.Healthy) :
    (keepers s).Succeeds (Observer.cycle observers s order) c := by
  intro x hx hfailed
  have hprobe := smooth_observe observers order c h x hx hfailed
  exact ((Observer.uses_cycle observers s order).mem_trace (keepers s).answer hx).2 hprobe

def Configures (s : Settings) (c : Call) : Prop :=
  ∀ cm, c = .applyConfigMap cm → cm.metadata.anyName = s.objects.operandConfig

theorem configures_prepare (s : Settings) : (prepare s).Uses (Configures s) := by
  refine (uses_prepare s).mono fun c hc cm hcall => ?_
  subst hcall
  rcases hc with hprerequisite | hreading
  · obtain ⟨m, hm⟩ | ⟨rendered, hrendered⟩ := hprerequisite.cases
    · cases hm
    · obtain rfl := Call.applyConfigMap.inj hrendered
      rfl
  · exact hreading.elim

theorem configures_resume (s : Settings) (p : Preparation) : (resume s p).Uses (Configures s) := by
  refine (uses_resume s p).mono fun c hc cm hcall => ?_
  subst hcall
  -- a config map may displace every other one of its name
  have hsame (data : Option (Dict String String)) : cm = { cm with data } := by
    by_contra hne
    exact hc (.applyConfigMap { cm with data }) ⟨rfl, hne⟩
  have hdata (data : Option (Dict String String)) : cm.data = data := congrArg ConfigMap.data (hsame data)
  cases (hdata none).symm.trans (hdata (some ∅))

theorem configMap?_answer {c : Steady s} {call : Call} (hcall : Configures s call) {space name : String}
    (hname : name ≠ s.objects.operandConfig) :
    (answer call c.1).2.view.configMap? space name = c.1.view.configMap? space name := by
  rcases (answer_objects call c).2 with hsame | ⟨cm, rfl⟩
  · rw [ClusterView.configMap?, hsame, ClusterView.configMap?]
  · have hne : name ≠ (objectRef cm).name := fun h => hname (h.trans (hcall cm rfl))
    rcases c.1.applyTo_cases .configMap (Cluster.applyConfigMap cm) with ⟨e, h⟩ | h
    · simp only [answer, h]
    · simp only [answer, h, Cluster.applyConfigMap]
      split
      · rfl
      · exact within?_put_of_ne c.1.view.configMaps hne

theorem configMap?_after_cycle (c : Steady s) {space name : String} (hname : name ≠ s.objects.operandConfig) :
    ((keepers s).after (cycle s) c).1.view.configMap? space name = c.1.view.configMap? space name := by
  have huses : (cycle s).Uses (Configures s) := by
    rw [cycle_eq_prepare]
    exact .bind (configures_prepare s) (configures_resume s)
  exact huses.run_keeps (keepers s).answer (fun c => c.1.view.configMap? space name)
    (fun _ _ hcall => configMap?_answer hcall hname) c

/-- There is an operator resource, and nothing has been deployed. -/
def bare : Steady {} := ⟨{ blank "" with view := {} }, rfl, rfl⟩

theorem healthy_bare : bare.1.Healthy := ⟨fun _ => rfl, rfl, rfl, rfl⟩

theorem snapshotName_not_dependency (r : Int) :
    Rollout.snapshotName {} r ∉ ({} : Settings).objects.dependencySecrets := by
  intro h
  have hother : ∀ name ∈ ({} : Settings).objects.dependencySecrets,
      ¬"encryption-config-".toList <+: name.toList := by decide
  exact hother _ h (isPrefix_snapshotName {} r)

end Steady

end RolloutControl.Simulation
