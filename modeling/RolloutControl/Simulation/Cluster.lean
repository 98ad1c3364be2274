import RolloutControl.Availability
import RolloutControl.Effect.Program
import RolloutControl.Status.Codec
/-! A cluster in memory that answers every call of the operator. It stores what is applied, guards the
operator resource by its version, and can be told to fail. -/

namespace RolloutControl.Simulation

inductive Kind
  | namespaceOf | serviceAccount | service | configMap | secret | deployment
deriving DecidableEq, Repr

/-- The calls of the operator resource. -/
inductive ResourceCall
  | get | updateSpec | updateStatus
deriving DecidableEq, Repr

/-- A change of the operator resource by somebody else: fields of the spec, or the whole status. -/
structure Edit where
  spec : Option Fields
  status : Option (Option OperatorStatus)

structure DeploymentApply where
  expected : Option Int
  force : Bool
  at' : Nat
deriving DecidableEq, Repr

structure Cluster where
  settings : Settings
  view : ClusterView := {}
  manifests : List Manifest := []
  operator : OperatorResource
  /-- How many replicas of the deployment are ready. -/
  ready : Int := 0
  /-- Why objects of a kind cannot be applied, if they cannot. -/
  refusals : Kind → Option String := fun _ => none
  silent : List String := []
  /-- Calls of the operator resource that are going to fail. -/
  failures : List (ResourceCall × ApiFailure) := []
  /-- How many writes are going to meet a conflict. -/
  conflicts : Nat := 0
  /-- Edits that are made right after the next reads. -/
  races : List Edit := []
  events : List Event := []
  applies : List DeploymentApply := []
  specWrites : Nat := 0
  statusWrites : Nat := 0
  reads : Nat := 0
  /-- Milliseconds since the beginning. -/
  now : Nat := 0
  /-- The time that conditions are stamped with. -/
  clock : Instant

namespace Cluster

def new (settings : Settings) (clock : Instant) : Cluster where
  settings
  clock
  operator := { metadata := { name := some "cluster", resourceVersion := some "1", generation := some 1 } }

def internalFailure (message : String) : Error := .api ⟨"Failure", message, "InternalError", 500⟩

def silence (groupVersion : String) : Error :=
  .api ⟨"Failure", "the server is currently unable to handle the request (" ++ groupVersion ++ ")",
    "ServiceUnavailable", 503⟩

def staleWrite : Error :=
  .api (.conflict "the object has been modified; please apply your changes to the latest version")

def nextVersion (r : OperatorResource) : Option String :=
  some (Text.natural ((Text.number? 10 r.version.toList).getD 0 + 1))

/-- The resource after its spec has been written. Another spec is another generation. -/
def withSpec (r : OperatorResource) (spec : OperatorSpec) (generation : Int) : OperatorResource :=
  { r with
    spec
    metadata := { r.metadata with resourceVersion := nextVersion r, generation := some generation } }

def withStatus (r : OperatorResource) (status : Option OperatorStatus) : OperatorResource :=
  { r with status, metadata := { r.metadata with resourceVersion := nextVersion r } }

def patched (spec : OperatorSpec) (fields : Fields) : OperatorSpec :=
  match spec.toJson with
  | .obj old => (((Json.object (old ++ fields)).decode OperatorSpec.ofTree).toOption).getD spec
  | _ => spec

def edited (r : OperatorResource) (e : Edit) : OperatorResource :=
  let r := match e.spec with
    | some fields => withSpec r (patched r.spec fields) (r.generation + 1)
    | none => r
  match e.status with
  | some status => withStatus r status
  | none => r

def takeFailure (c : Cluster) (call : ResourceCall) : Option (Error × Cluster) :=
  (c.failures.find? fun f => f.1 = call).map fun f =>
    (.api f.2, { c with failures := c.failures.eraseP fun f => f.1 = call })

def read (c : Cluster) : Except Error OperatorResource × Cluster :=
  let c := { c with reads := c.reads + 1 }
  match c.takeFailure .get with
  | some (e, c) => (.error e, c)
  | none =>
    match c.races with
    | [] => (.ok c.operator, c)
    | e :: r => (.ok c.operator, { c with operator := edited c.operator e, races := r })

/-- A write on top of a version; `write` is what happens if it is the current one. -/
def guarded (c : Cluster) (call : ResourceCall) (version : String) (write : Cluster → Cluster) :
    Except Error OperatorResource × Cluster :=
  match c.takeFailure call with
  | some (e, c) => (.error e, c)
  | none =>
    if 0 < c.conflicts then (.error staleWrite, { c with conflicts := c.conflicts - 1 })
    else if c.operator.metadata.resourceVersion ≠ some version then (.error staleWrite, c)
    else
      let c := write c
      (.ok c.operator, c)

def writeSpec (spec : OperatorSpec) (c : Cluster) : Cluster :=
  let generation := if c.operator.spec.same spec then c.operator.metadata.generation
    else some (c.operator.generation + 1)
  { c with
    operator := { c.operator with
      spec
      metadata := { c.operator.metadata with resourceVersion := nextVersion c.operator, generation } }
    specWrites := c.specWrites + 1 }

def writeStatus (status : OperatorStatus) (c : Cluster) : Cluster :=
  { c with operator := withStatus c.operator (some status), statusWrites := c.statusWrites + 1 }

def kindOf : Manifest → Kind
  | .namespaceOf _ => .namespaceOf
  | .serviceAccount _ _ => .serviceAccount
  | .service _ _ _ => .service

def sameObject (a b : Manifest) : Bool := kindOf a = kindOf b && a.space = b.space && a.name = b.name

def applyTo (c : Cluster) (kind : Kind) (apply : Cluster → Bool × Cluster) :
    Except Error Bool × Cluster :=
  match c.refusals kind with
  | some message => (.error (internalFailure message), c)
  | none =>
    let (changed, c) := apply c
    (.ok changed, c)

def applyManifest (m : Manifest) (c : Cluster) : Bool × Cluster :=
  if c.manifests.contains m then (false, c)
  else (true, { c with manifests := c.manifests.filter (fun n => !sameObject m n) ++ [m] })

def putConfigMap (c : Cluster) (cm : ConfigMap) : Cluster :=
  { c with view := { c.view with configMaps := Cache.put c.view.configMaps cm } }

def putSecret (c : Cluster) (s : Secret) : Cluster :=
  { c with view := { c.view with secrets := Cache.put c.view.secrets s } }

def putDeployment (c : Cluster) (d : Deployment) : Cluster :=
  { c with view := { c.view with deployments := Cache.put c.view.deployments d } }

def applyConfigMap (cm : ConfigMap) (c : Cluster) : Bool × Cluster :=
  let m := cm.metadata
  if c.view.configMap? (m.space.getD "") m.anyName = some cm then (false, c) else (true, c.putConfigMap cm)

def applySecret (s : Secret) (c : Cluster) : Bool × Cluster :=
  let m := s.metadata
  if c.view.secret? (m.space.getD "") m.anyName = some s then (false, c) else (true, c.putSecret s)

def deployment? (c : Cluster) : Option Deployment := c.view.deployment? c.settings

def isUpToDate (existing wanted : Deployment) : Bool :=
  existing.spec = wanted.spec && existing.metadata.annotations = wanted.metadata.annotations &&
    existing.metadata.labels = wanted.metadata.labels

def rolledOut (c : Cluster) (d : Deployment) (generation : Int) : Deployment :=
  { d with
    metadata := { d.metadata with generation := some generation }
    status := some
      { observedGeneration := some generation
        replicas := d.spec.map (·.replicas)
        ready := some c.ready } }

def applyDeployment (c : Cluster) (d : Deployment) (expected : Option Int) (force : Bool) :
    Except Error (Deployment × Bool) × Cluster :=
  let c := { c with applies := c.applies ++ [⟨expected, force, c.now⟩] }
  match c.refusals .deployment with
  | some message => (.error (internalFailure message), c)
  | none =>
    match c.deployment? with
    | none =>
      let d := c.rolledOut d 1
      (.ok (d, true), c.putDeployment d)
    | some existing =>
      if isUpToDate existing d && !force then (.ok (existing, false), c)
      else
        let d := c.rolledOut d (existing.metadata.generation.getD 1 + 1)
        (.ok (d, true), c.putDeployment d)

def answer : Program.World Cluster
  | .view, c => (c.view, c)
  | .clock, c => (c.clock, c)
  | .getOperator, c => c.read
  | .writeSpec version spec, c => c.guarded .updateSpec version (writeSpec spec)
  | .writeStatus version status, c => c.guarded .updateStatus version (writeStatus status)
  | .applyManifest m, c => c.applyTo (kindOf m) (applyManifest m)
  | .applyConfigMap cm, c => c.applyTo .configMap (applyConfigMap cm)
  | .applySecret s, c => c.applyTo .secret (applySecret s)
  | .applyDeployment d expected force, c => c.applyDeployment d expected force
  | .probe gv, c => (if c.silent.contains gv then .error (silence gv) else .ok (), c)
  | .publish e, c => ((), { c with events := c.events ++ [e] })
  | .sleep millis, c => ((), { c with now := c.now + millis })

def removeConfigMap (c : Cluster) (r : ObjectRef) : Cluster :=
  { c with view := { c.view with configMaps := Dict.erase c.view.configMaps r } }

def removeSecret (c : Cluster) (r : ObjectRef) : Cluster :=
  { c with view := { c.view with secrets := Dict.erase c.view.secrets r } }

def setPods (c : Cluster) (pods : List Pod) : Cluster :=
  { c with view := { c.view with pods := Cache.ofObjects pods } }

def setApiServices (c : Cluster) (services : List ApiService) : Cluster :=
  { c with view := { c.view with apiServices := Cache.ofObjects services } }

def removeDeployment (c : Cluster) : Cluster :=
  match c.deployment? with
  | some d => { c with view := { c.view with deployments := Dict.erase c.view.deployments (objectRef d) } }
  | none => c

def refuse (c : Cluster) (kind : Kind) (message : Option String) : Cluster :=
  { c with refusals := fun k => if k = kind then message else c.refusals k }

def editOperator (c : Cluster) (e : Edit) : Cluster := { c with operator := edited c.operator e }

/-- Changes the deployment of the operand, if there is one. -/
def editDeployment (c : Cluster) (edit : Deployment → Deployment) : Cluster :=
  match c.deployment? with
  | some d => c.putDeployment (edit d)
  | none => c

def amendDeployment (c : Cluster) (generation : Option Int) (annotations : Option Labels)
    (observed ready : Option Int) : Cluster :=
  c.editDeployment fun d =>
    let status := d.status.getD {}
    { d with
      metadata := { d.metadata with
        generation := generation <|> d.metadata.generation
        annotations := annotations <|> d.metadata.annotations }
      status := if observed.isNone && ready.isNone then d.status else some { status with
        observedGeneration := observed <|> status.observedGeneration
        ready := ready <|> status.ready } }

def setReady (c : Cluster) (ready : Int) : Cluster :=
  { c with ready }.amendDeployment none none none (some ready)

def register (c : Cluster) (available : Bool) : Cluster :=
  let condition : ServiceCondition :=
    if available then ⟨"Available", "True", none⟩
    else ⟨"Available", "False", some "no response from https://10.128.0.5:8443"⟩
  c.setApiServices (c.settings.groupVersions.filterMap fun gv =>
    (apiServiceName? gv).map fun name =>
      { metadata := { name := some name }, conditions := [condition] })

def rollPods (c : Cluster) (names : List String) : Cluster :=
  let e := c.settings.encryption
  let revision := (c.deployment?.bind (·.podLabel? e.revisionLabel)).getD ""
  c.setPods (names.map fun name =>
    { metadata :=
        { name := some name
          space := some e.space
          labels := some (e.podSelector.insert e.revisionLabel revision) }
      phase := some "Running" })

end Cluster

end RolloutControl.Simulation
