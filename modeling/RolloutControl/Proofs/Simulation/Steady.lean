import RolloutControl.Proofs.Workload.Deeds
import RolloutControl.Proofs.Workload.Preparation
import RolloutControl.Simulation.Cluster
/-! The cluster in memory keeps what is promised to the operator, as long as nobody edits the operator
resource behind its back. -/

namespace RolloutControl.Simulation

namespace Cluster

def state (c : Cluster) : ClusterState := ⟨c.view, c.operator⟩

theorem within?_put {α : Type} [ClusterObject α] (c : Cache α) (a : α) {space : String}
    (h : (objectRef a).space = some space) : (c.put a).within? space (objectRef a).name = some a := by
  have href : (⟨(objectRef a).name, some space⟩ : ObjectRef) = objectRef a := by rw [← h]
  simp [Cache.within?, Cache.find?, Cache.put, href]

theorem within?_put_of_ne {α : Type} [ClusterObject α] (c : Cache α) {a : α} {space name : String}
    (h : name ≠ (objectRef a).name) : (c.put a).within? space name = c.within? space name := by
  have hne (sp : Option String) : (⟨name, sp⟩ : ObjectRef) ≠ objectRef a :=
    fun he => h (congrArg ObjectRef.name he)
  simp [Cache.within?, Cache.find?, Cache.put, hne]

theorem within?_erase_of_ne {α : Type} [ClusterObject α] (c : Cache α) {r : ObjectRef}
    {space name : String} (h : name ≠ r.name) :
    Cache.within? (Dict.erase c r) space name = Cache.within? c space name := by
  have hne (sp : Option String) : (⟨name, sp⟩ : ObjectRef) ≠ r := fun he => h (congrArg ObjectRef.name he)
  simp [Cache.within?, Cache.find?, hne]

theorem stores_put (c : Cache Secret) (x : Secret) : Cache.Stores x c (c.put x) where
  found _ h := ⟨x, within?_put c x h, rfl⟩
  frame r h := by simp [Cache.put, h]

theorem stores_self {c : Cache Secret} {x : Secret}
    (h : c.within? (x.metadata.space.getD "") x.metadata.anyName = some x) : Cache.Stores x c c where
  found space hspace := by
    have hx : x.metadata.space.getD "" = space := congrArg (Option.getD · "") hspace
    exact ⟨x, hx ▸ h, rfl⟩
  frame _ _ := rfl

theorem realizes_of_isUpToDate {existing wanted : Deployment} (h : isUpToDate existing wanted = true) :
    existing.Realizes wanted := by
  simp only [isUpToDate, Bool.and_eq_true, decide_eq_true_eq] at h
  obtain ⟨⟨hspec, hannotations⟩, -⟩ := h
  exact ⟨fun label => by rw [Deployment.podLabel?, hspec, Deployment.podLabel?],
    by rw [Rollout.recordedDependencies, hannotations, Rollout.recordedDependencies]⟩

theorem applyTo_cases (c : Cluster) (kind : Kind) (apply : Cluster → Bool × Cluster) :
    (∃ e, c.applyTo kind apply = (.error e, c)) ∨
      c.applyTo kind apply = (.ok (apply c).1, (apply c).2) := by
  unfold applyTo
  split
  · exact .inl ⟨_, rfl⟩
  · exact .inr rfl

theorem applySecret_cases (x : Secret) (c : Cluster) :
    ∃ m, (applySecret x c).2 = { c with view := { c.view with secrets := m } } ∧
      Cache.Stores x c.view.secrets m := by
  simp only [applySecret]
  split
  · next h => exact ⟨c.view.secrets, rfl, stores_self h⟩
  · exact ⟨_, rfl, stores_put c.view.secrets x⟩

theorem applyConfigMap_cases (cm : ConfigMap) (c : Cluster) :
    ∃ m, (applyConfigMap cm c).2 = { c with view := { c.view with configMaps := m } } := by
  simp only [applyConfigMap]
  split
  · exact ⟨c.view.configMaps, rfl⟩
  · exact ⟨_, rfl⟩

theorem applyManifest_cases (m : Manifest) (c : Cluster) :
    ∃ l, (applyManifest m c).2 = { c with manifests := l } := by
  simp only [applyManifest]
  split
  · exact ⟨c.manifests, rfl⟩
  · exact ⟨_, rfl⟩

theorem rolledOut_realizes (c : Cluster) (d : Deployment) (generation : Int) :
    (c.rolledOut d generation).Realizes d :=
  ⟨fun _ => rfl, rfl⟩

/-- A deployment cannot be applied, or the cluster has one afterwards that is as it was wanted. -/
theorem applyDeployment_cases (c : Cluster) (d : Deployment) (expected : Option Int) (force : Bool) :
    ∃ l, (∃ e, c.applyDeployment d expected force = (.error e, { c with applies := l })) ∨
      ∃ d' changed m, c.applyDeployment d expected force =
          (.ok (d', changed), { c with applies := l, view := { c.view with deployments := m } }) ∧
        (objectRef d = deploymentRef c.settings →
          m.within? c.settings.targetSpace c.settings.deploymentName = some d' ∧ d'.Realizes d) := by
  refine ⟨c.applies ++ [⟨expected, force, c.now⟩], ?_⟩
  generalize hb : ({ c with applies := c.applies ++ [⟨expected, force, c.now⟩] } : Cluster) = b
  have hput (generation : Int) (hd : objectRef d = deploymentRef c.settings) :
      (c.view.deployments.put (b.rolledOut d generation)).within? c.settings.targetSpace
        c.settings.deploymentName = some (b.rolledOut d generation) := by
    have href : objectRef (b.rolledOut d generation) = deploymentRef c.settings := hd
    have hfound : (c.view.deployments.put (b.rolledOut d generation)).within? c.settings.targetSpace
      (objectRef (b.rolledOut d generation)).name = _ := within?_put _ _ (by rw [href]; rfl)
    rwa [href] at hfound
  simp only [applyDeployment, hb]
  have hview : b.view = c.view := by rw [← hb]
  have hsettings : b.settings = c.settings := by rw [← hb]
  split
  · exact .inl ⟨_, rfl⟩
  · refine .inr ?_
    split
    · exact ⟨_, _, _, by rw [← hb]; rfl, fun hd => ⟨hput 1 hd, b.rolledOut_realizes d 1⟩⟩
    · next existing hx =>
      split
      · next hok =>
        rw [Bool.and_eq_true] at hok
        refine ⟨existing, false, c.view.deployments, by rw [← hb], fun _ => ⟨?_, realizes_of_isUpToDate hok.1⟩⟩
        rwa [Cluster.deployment?, hview, hsettings] at hx
      · exact ⟨_, _, _, by rw [← hb]; rfl, fun hd => ⟨hput _ hd, b.rolledOut_realizes d _⟩⟩

theorem takeFailure_eq {c d : Cluster} {call : ResourceCall} {e : Error}
    (h : c.takeFailure call = some (e, d)) : ∃ l, d = { c with failures := l } := by
  obtain ⟨f, -, hf⟩ := Option.map_eq_some_iff.1 h
  exact ⟨_, (Prod.mk.inj hf).2.symm⟩

theorem guarded_cases (c : Cluster) (call : ResourceCall) (version : String) (write : Cluster → Cluster) :
    (∃ e l n, c.guarded call version write = (.error e, { c with failures := l, conflicts := n })) ∨
      c.guarded call version write = (.ok (write c).operator, write c) := by
  unfold guarded
  split
  · next e d h =>
    obtain ⟨l, rfl⟩ := takeFailure_eq h
    exact .inl ⟨e, l, c.conflicts, rfl⟩
  · split
    · exact .inl ⟨_, c.failures, _, rfl⟩
    · split
      · exact .inl ⟨_, c.failures, c.conflicts, rfl⟩
      · exact .inr rfl

theorem read_cases {c : Cluster} (h : c.races = []) :
    ∃ n, (∃ e l, c.read = (.error e, { c with reads := n, failures := l })) ∨
      c.read = (.ok c.operator, { c with reads := n }) := by
  refine ⟨c.reads + 1, ?_⟩
  unfold read
  dsimp only
  split
  · next e d he =>
    obtain ⟨l, rfl⟩ := takeFailure_eq he
    exact .inl ⟨e, l, rfl⟩
  · rw [h]
    exact .inr rfl

end Cluster

/-- A cluster with these settings in which nobody edits the operator resource during a cycle. -/
def Steady (s : Settings) : Type := { c : Cluster // c.settings = s ∧ c.races = [] }

namespace Steady

open Cluster

variable {s : Settings}

theorem steady (c : Steady s) : c.1.settings = s ∧ c.1.races = [] := c.2

theorem answer_steady (call : Call) (c : Steady s) :
    (answer call c.1).2.settings = s ∧ (answer call c.1).2.races = [] := by
  obtain ⟨c, hc⟩ := c
  cases call with
  | getOperator =>
    obtain ⟨n, ⟨e, l, h⟩ | h⟩ := read_cases hc.2 <;> simpa only [answer, h] using hc
  | writeSpec version spec =>
    rcases c.guarded_cases .updateSpec version (writeSpec spec) with ⟨e, l, n, h⟩ | h <;>
      (simp only [answer, h]; exact hc)
  | writeStatus version status =>
    rcases c.guarded_cases .updateStatus version (Cluster.writeStatus status) with ⟨e, l, n, h⟩ | h <;>
      (simp only [answer, h]; exact hc)
  | applyManifest m =>
    obtain ⟨l, hafter⟩ := applyManifest_cases m c
    rcases c.applyTo_cases (kindOf m) (Cluster.applyManifest m) with ⟨e, h⟩ | h <;>
      simpa only [answer, h, hafter] using hc
  | applyConfigMap cm =>
    obtain ⟨l, hafter⟩ := applyConfigMap_cases cm c
    rcases c.applyTo_cases .configMap (Cluster.applyConfigMap cm) with ⟨e, h⟩ | h <;>
      simpa only [answer, h, hafter] using hc
  | applySecret x =>
    obtain ⟨l, hafter, -⟩ := applySecret_cases x c
    rcases c.applyTo_cases .secret (Cluster.applySecret x) with ⟨e, h⟩ | h <;>
      simpa only [answer, h, hafter] using hc
  | applyDeployment d expected force =>
    obtain ⟨l, ⟨e, h⟩ | ⟨d', changed, m, h, -⟩⟩ := c.applyDeployment_cases d expected force <;>
      simpa only [answer, h] using hc
  | view | clock | probe | publish | sleep => exact hc

theorem answer_allowed (call : Call) (c : Steady s) :
    call.Allows s c.1.state (answer call c.1).2.state (answer call c.1).1 := by
  obtain ⟨c, rfl, hraces⟩ := c
  cases call with
  | view => exact ⟨rfl, rfl⟩
  | getOperator =>
    obtain ⟨n, ⟨e, l, h⟩ | h⟩ := read_cases hraces
    · simp only [answer, h]
      rfl
    · simp only [answer, h]
      exact ⟨rfl, rfl⟩
  | writeSpec version spec =>
    rcases c.guarded_cases .updateSpec version (writeSpec spec) with ⟨e, l, n, h⟩ | h
    · simp only [answer, h]
      rfl
    · simp only [answer, h]
      exact ⟨rfl, rfl, rfl⟩
  | writeStatus version status =>
    rcases c.guarded_cases .updateStatus version (Cluster.writeStatus status) with ⟨e, l, n, h⟩ | h
    · simp only [answer, h]
      rfl
    · simp only [answer, h]
      exact ⟨rfl, rfl, rfl⟩
  | applyManifest m =>
    obtain ⟨l, hafter⟩ := applyManifest_cases m c
    rcases c.applyTo_cases (kindOf m) (Cluster.applyManifest m) with ⟨e, h⟩ | h
    · simp only [answer, h]
      rfl
    · simp only [answer, h, hafter]
      rfl
  | applyConfigMap cm =>
    obtain ⟨m, hafter⟩ := applyConfigMap_cases cm c
    rcases c.applyTo_cases .configMap (Cluster.applyConfigMap cm) with ⟨e, h⟩ | h
    · simp only [answer, h]
      rfl
    · simp only [answer, h, hafter]
      exact ⟨m, rfl⟩
  | applySecret x =>
    obtain ⟨m, hafter, hstores⟩ := applySecret_cases x c
    rcases c.applyTo_cases .secret (Cluster.applySecret x) with ⟨e, h⟩ | h
    · simp only [answer, h]
      rfl
    · simp only [answer, h, hafter]
      exact ⟨m, rfl, hstores⟩
  | applyDeployment d expected force =>
    obtain ⟨l, ⟨e, h⟩ | ⟨d', changed, m, h, hfound⟩⟩ := c.applyDeployment_cases d expected force
    · simp only [answer, h]
      rfl
    · simp only [answer, h]
      exact ⟨m, rfl, hfound⟩
  | clock | probe | publish | sleep => rfl

/-- The cluster in memory as the one who answers the operator. -/
def collaborators (s : Settings) : Collaborators s (Steady s) where
  answer call c := ((answer call c.1).1, ⟨(answer call c.1).2, answer_steady call c⟩)
  state c := c.1.state
  allowed := answer_allowed

def recorders (s : Settings) : Recorders s (Steady s) where
  toCollaborators := collaborators s
  spec_written version spec c r h := by
    rcases c.1.guarded_cases .updateSpec version (writeSpec spec) with ⟨e, l, n, hfailed⟩ | hdone
    · exact absurd ((congrArg Prod.fst hfailed).symm.trans h) (by simp)
    · obtain rfl := Except.ok.inj ((congrArg Prod.fst hdone).symm.trans h)
      rfl
  status_written version status c r h := by
    rcases c.1.guarded_cases .updateStatus version (Cluster.writeStatus status) with ⟨e, l, n, hfailed⟩ | hdone
    · exact absurd ((congrArg Prod.fst hfailed).symm.trans h) (by simp)
    · obtain rfl := Except.ok.inj ((congrArg Prod.fst hdone).symm.trans h)
      exact ⟨rfl, rfl⟩

def inPlace : Call → Steady s → Prop
  | .applyManifest m, c => m ∈ c.1.manifests
  | .applyConfigMap cm, c => c.1.view.configMap? (cm.metadata.space.getD "") cm.metadata.anyName = some cm
  | _, _ => True

theorem answer_objects (call : Call) (c : Steady s) :
    ((answer call c.1).2.manifests = c.1.manifests ∨ ∃ m, call = .applyManifest m) ∧
      ((answer call c.1).2.view.configMaps = c.1.view.configMaps ∨ ∃ cm, call = .applyConfigMap cm) := by
  obtain ⟨c, hc⟩ := c
  cases call with
  | getOperator =>
    obtain ⟨n, ⟨e, l, h⟩ | h⟩ := read_cases hc.2 <;> simp [answer, h]
  | writeSpec version spec =>
    rcases c.guarded_cases .updateSpec version (writeSpec spec) with ⟨e, l, n, h⟩ | h <;>
      simp [answer, h, writeSpec]
  | writeStatus version status =>
    rcases c.guarded_cases .updateStatus version (Cluster.writeStatus status) with ⟨e, l, n, h⟩ | h <;>
      simp [answer, h, Cluster.writeStatus]
  | applyManifest m =>
    obtain ⟨l, hafter⟩ := applyManifest_cases m c
    rcases c.applyTo_cases (kindOf m) (Cluster.applyManifest m) with ⟨e, h⟩ | h <;>
      simp [answer, h, hafter]
  | applyConfigMap cm =>
    obtain ⟨l, hafter⟩ := applyConfigMap_cases cm c
    rcases c.applyTo_cases .configMap (Cluster.applyConfigMap cm) with ⟨e, h⟩ | h <;>
      simp [answer, h, hafter]
  | applySecret x =>
    obtain ⟨l, hafter, -⟩ := applySecret_cases x c
    rcases c.applyTo_cases .secret (Cluster.applySecret x) with ⟨e, h⟩ | h <;>
      simp [answer, h, hafter]
  | applyDeployment d expected force =>
    obtain ⟨l, ⟨e, h⟩ | ⟨d', changed, m, h, -⟩⟩ := c.applyDeployment_cases d expected force <;>
      simp [answer, h]
  | view | clock | probe | publish | sleep => simp [answer]

theorem mem_applyManifest (m : Manifest) (c : Cluster) : m ∈ (Cluster.applyManifest m c).2.manifests := by
  unfold Cluster.applyManifest
  split
  · next h => simpa using h
  · simp

theorem mem_applyManifest_of_mem {m n : Manifest} {c : Cluster} (h : m ∈ c.manifests)
    (hmn : ¬(n.kind = m.kind ∧ n ≠ m)) : m ∈ (Cluster.applyManifest n c).2.manifests := by
  by_cases heq : n = m
  · exact heq ▸ mem_applyManifest n c
  · have hother : kindOf n ≠ kindOf m := fun hkind => hmn ⟨by cases n <;> cases m <;> simp_all [kindOf, Manifest.kind], heq⟩
    unfold Cluster.applyManifest
    split
    · exact h
    · simp [h, sameObject, hother]

theorem configMap?_applyConfigMap (cm : ConfigMap) {space : String} (h : (objectRef cm).space = some space)
    (c : Cluster) : (Cluster.applyConfigMap cm c).2.view.configMap? space (objectRef cm).name = some cm := by
  have hspace : cm.metadata.space.getD "" = space := congrArg (Option.getD · "") h
  unfold Cluster.applyConfigMap
  dsimp only
  split
  · next hfound => exact hspace ▸ hfound
  · exact within?_put c.view.configMaps cm h

theorem configMap?_applyConfigMap_of_found (cm : ConfigMap) {other : ConfigMap} {c : Cluster} {space : String}
    (h : (objectRef cm).space = some space)
    (hfound : c.view.configMap? space (objectRef cm).name = some cm)
    (hother : ¬((objectRef other).name = (objectRef cm).name ∧ other ≠ cm)) :
    (Cluster.applyConfigMap other c).2.view.configMap? space (objectRef cm).name = some cm := by
  by_cases heq : other = cm
  · exact heq ▸ configMap?_applyConfigMap cm h c
  · have hname : (objectRef cm).name ≠ (objectRef other).name := fun hname => hother ⟨hname.symm, heq⟩
    unfold Cluster.applyConfigMap
    dsimp only
    split
    · exact hfound
    · exact (within?_put_of_ne c.view.configMaps hname).trans hfound

theorem inPlace_configMap {rendered : Document} {c : Steady s} :
    inPlace (.applyConfigMap (Operand.configMap s rendered)) c ↔
      c.1.view.configMap? s.targetSpace s.objects.operandConfig = some (Operand.configMap s rendered) :=
  Iff.rfl

def appliers (s : Settings) : Appliers s (Steady s) where
  toRecorders := recorders s
  inPlace := inPlace
  applied call c hcall hok := by
    change ¬call.Failed (answer call c.1).1 at hok
    obtain ⟨m, rfl⟩ | ⟨rendered, rfl⟩ := hcall.cases
    · change m ∈ (answer (.applyManifest m) c.1).2.manifests
      rcases c.1.applyTo_cases (kindOf m) (Cluster.applyManifest m) with ⟨e, h⟩ | h
      · simp [answer, h, Call.Failed] at hok
      · simpa only [answer, h] using mem_applyManifest m c.1
    · refine inPlace_configMap.2 ?_
      change (answer (.applyConfigMap _) c.1).2.view.configMap? _ _ = _
      rcases c.1.applyTo_cases .configMap (Cluster.applyConfigMap (Operand.configMap s rendered)) with
        ⟨e, h⟩ | h
      · simp [answer, h, Call.Failed] at hok
      · rw [answer, h]
        exact configMap?_applyConfigMap (Operand.configMap s rendered) rfl c.1
  kept call call' c hcall hin hkept := by
    obtain ⟨hmanifests, hconfigMaps⟩ := answer_objects call' c
    obtain ⟨m, rfl⟩ | ⟨rendered, rfl⟩ := hcall.cases
    · change m ∈ c.1.manifests at hin
      change m ∈ (answer call' c.1).2.manifests
      obtain hsame | ⟨n, rfl⟩ := hmanifests
      · exact hsame ▸ hin
      · rcases c.1.applyTo_cases (kindOf n) (Cluster.applyManifest n) with ⟨e, h⟩ | h
        · simpa only [answer, h] using hin
        · simpa only [answer, h] using mem_applyManifest_of_mem hin hkept
    · refine inPlace_configMap.2 ?_
      rw [inPlace_configMap] at hin
      change (answer call' c.1).2.view.configMap? _ _ = _
      obtain hsame | ⟨cm, rfl⟩ := hconfigMaps
      · rwa [ClusterView.configMap?, hsame]
      · rcases c.1.applyTo_cases .configMap (Cluster.applyConfigMap cm) with ⟨e, h⟩ | h
        · simpa only [answer, h] using hin
        · rw [answer, h]
          exact configMap?_applyConfigMap_of_found (Operand.configMap s rendered) rfl hin hkept
  settled call c hcall hin := by
    change ¬call.Changed (answer call c.1).1
    obtain ⟨m, rfl⟩ | ⟨rendered, rfl⟩ := hcall.cases
    · rw [Call.changed_applyManifest]
      have hm : m ∈ c.1.manifests := hin
      rcases c.1.applyTo_cases (kindOf m) (Cluster.applyManifest m) with ⟨e, h⟩ | h
      · simp [answer, h]
      · simp [answer, h, Cluster.applyManifest, hm]
    · rw [inPlace_configMap] at hin
      rw [Call.changed_applyConfigMap]
      rcases c.1.applyTo_cases .configMap (Cluster.applyConfigMap (Operand.configMap s rendered)) with
        ⟨e, h⟩ | h
      · simp [answer, h]
      · have hsame : (Cluster.applyConfigMap (Operand.configMap s rendered) c.1).1 = false := by
          unfold Cluster.applyConfigMap
          exact congrArg Prod.fst (if_pos hin)
        simp [answer, h, hsame]
  unwritten call c hcall hunchanged := by
    change ¬call.Changed (answer call c.1).1 at hunchanged
    change (answer call c.1).2.state = c.1.state
    obtain ⟨m, rfl⟩ | ⟨rendered, rfl⟩ := hcall.cases
    · obtain ⟨l, hafter⟩ := applyManifest_cases m c.1
      rcases c.1.applyTo_cases (kindOf m) (Cluster.applyManifest m) with ⟨e, h⟩ | h <;>
        simp [answer, h, hafter, Cluster.state]
    · rw [Call.changed_applyConfigMap] at hunchanged
      rcases c.1.applyTo_cases .configMap (Cluster.applyConfigMap (Operand.configMap s rendered)) with
        ⟨e, h⟩ | h
      · simp [answer, h]
      · simp only [answer, h, Except.ok.injEq] at hunchanged ⊢
        unfold Cluster.applyConfigMap at hunchanged ⊢
        dsimp only at hunchanged ⊢
        split
        · rfl
        · next hnew => simp [hnew] at hunchanged

theorem ledger_held (c : Steady s) (r : Int) : ((collaborators s).ledger c).held r =
    (c.1.view.secrets.within? s.targetSpace (Rollout.snapshotName s r)).map Secret.contents := rfl

theorem ledger_running (c : Steady s) : ((collaborators s).ledger c).running =
    (c.1.view.deployments.within? s.targetSpace s.deploymentName).map (Carried.ofDeployment s) := rfl

def configRef : ObjectRef := ⟨"encryption-config", some "openshift-apiserver"⟩

def config (text : String) : Secret where
  metadata := { name := some configRef.name, space := configRef.space }
  data := some (Dict.ofList [("encryption-config", textBytes text)])

def firstSnapshot (text : String) : Secret :=
  { config text with metadata := { name := some "encryption-config-1", space := configRef.space } }

/-- A cluster in which nothing has been deployed yet, and everything is there for it. -/
def blank (text : String) : Cluster :=
  { Cluster.new {} default with
    operator :=
      { metadata := { name := some "cluster", resourceVersion := some "1", generation := some 1 }
        spec := { observedConfig := .obj [("a", .str "b")] } }
    view := { secrets := Cache.put ∅ (config text) } }

theorem snapshotName_ne_config (r : Int) : Rollout.snapshotName {} r ≠ configRef.name :=
  (prefix_ne_snapshotName {} r).symm

end Steady

end RolloutControl.Simulation
