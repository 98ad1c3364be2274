import RolloutControl.Effect.Update
import RolloutControl.Loop.Basic
import RolloutControl.Workload.Conditions
import RolloutControl.Workload.Rollout
/-! One cycle of the workload: the operand is brought about as the operator resource wants it, and its
state is reported. A step that fails does not keep the later ones from being taken. -/

namespace RolloutControl.Workload

def group : String := "apps"
def resource : String := "deployments"

/-- Applies objects one after the other. The result is what changed, and what went wrong. -/
def applyAll : List (String × Program (Except Error Bool)) → Program (List String × List Error)
  | [] => pure ([], [])
  | (kind, apply) :: r => do
    let applied ← apply
    let (changed, errors) ← applyAll r
    match applied with
    | .ok true => pure (kind :: changed, errors)
    | .ok false => pure (changed, errors)
    | .error e => pure (changed, e :: errors)

/-- The configuration of the operand, or why it cannot be had. -/
def applyConfig (s : Settings) (spec : OperatorSpec) : Program (Except Error Bool) :=
  match Operand.render spec with
  | .ok rendered => .ask (.applyConfigMap (Operand.configMap s rendered))
  | .error e => pure (.error e)

/-- Everything that has to be there before the deployment. The result is whether any of it changed,
and what went wrong. -/
def applyPrerequisites (s : Settings) (spec : OperatorSpec) : Program (Bool × List Error) := do
  let (changed, errors) ← applyAll
    ((Operand.manifests s).map (fun m => (m.kind, .ask (.applyManifest m))) ++
      [("ConfigMap", applyConfig s spec)])
  publishAll (changed.map fun kind =>
    .normal (kind ++ "Updated") ("Applied " ++ kind ++ " for " ++ s.deploymentName))
  pure (!changed.isEmpty, errors)

structure Plan where
  /-- The digests of all that the operand mounts. -/
  digests : Dependencies
  /-- The dependencies that have changed since the last rollout. -/
  changed : List String
  force : Bool
  revision : Int

/-- A new revision is cut when the operator resource, something applied before or a dependency has
changed, and when there is none yet. Revisions are unbounded: what comes behind the greatest one of 64
bits is left out. -/
def plan (v : ClusterView) (s : Settings) (operator : OperatorResource) (prerequisitesChanged : Bool) :
    Plan :=
  let status := operator.statusOrEmpty
  let digests := Rollout.dependencies v s
  let changed := ((v.deployment? s).map fun d =>
    digests.changedFrom (Rollout.recordedDependencies d)).getD []
  let force := operator.generation ≠ status.observedGeneration || prerequisitesChanged || !changed.isEmpty
  let latest := status.latestRevision
  { digests, changed, force, revision := if force || latest = 0 then latest + 1 else latest }

/-- Copies the encryption configuration for a revision. Without the copy, pods of the revision would
count as running without encryption. -/
def takeSnapshot (s : Settings) (revision : Int) : Program (Except Error Unit) := do
  match Rollout.snapshot? (← view) s revision with
  | none => pure (.ok ())
  | some secret =>
    match ← Program.ask (.applySecret secret) with
    | .ok _ => pure (.ok ())
    | .error e => pure (.error e)

def rolloutNote (s : Settings) (p : Plan) : String :=
  "Applied deployment " ++ s.deploymentName ++ " at revision " ++ Text.integer p.revision ++
    (if p.changed.isEmpty then ""
    else " because of changes to " ++ String.intercalate ", " p.changed)

def applyPlan (s : Settings) (operator : OperatorResource) (recorded : Option Int) (p : Plan) :
    Program (Except Error Deployment) := do
  let proxy := Rollout.proxyEnv (← view) s
  let wanted := Rollout.deployment s operator.spec.logLevel p.revision p.digests proxy
  match ← Program.ask (.applyDeployment wanted recorded p.force) with
  | .error e => pure (.error e)
  | .ok (d, changed) =>
    if changed then publish (.normal "DeploymentUpdated" (rolloutNote s p))
    pure (.ok d)

abbrev Applied := Deployment × Int

def rollOut (s : Settings) (operator : OperatorResource) (prerequisitesChanged : Bool)
    (recorded : Option Int) : Program (Except Error Applied) := do
  let p := plan (← view) s operator prerequisitesChanged
  let copied ← if p.revision = operator.statusOrEmpty.latestRevision then pure (.ok ())
    else takeSnapshot s p.revision
  match copied with
  | .error e => pure (.error e)
  | .ok () =>
    match ← applyPlan s operator recorded p with
    | .error e => pure (.error e)
    | .ok d => pure (.ok (d, p.revision))

/-- Why the operand is not available, if it is not. Discovery is asked last. -/
def availability (s : Settings) (current : Option Deployment) : Program (Option Unavailable) :=
  match current with
  | none => pure (some (WorkloadCondition.noDeployment s))
  | some d =>
    if d.readyReplicas = 0 then pure (some (WorkloadCondition.noPod s))
    else do
      match checkRegistrations (← view).apiServices s.groupVersions with
      | some problem => pure (some problem)
      | none => return checkDiscovery (← probeAll s.groupVersions)

structure Report where
  applied : Option Applied
  current : Option Deployment
  recorded : Option Int
  problem : Option Unavailable
  errors : List Error

def Report.conditions (r : Report) (s : Settings) (operator : OperatorResource) : List Condition :=
  let name := s.conditionPrefix
  [WorkloadCondition.available name r.problem,
   WorkloadCondition.progressing name r.current r.recorded operator.generation
     operator.statusOrEmpty.observedGeneration,
   WorkloadCondition.degraded name r.current s.replicas,
   WorkloadCondition.workloadDegraded name r.errors]

def setAll (now : Instant) (new : List Condition) (l : List Condition) : List Condition :=
  new.foldl (fun l c => Condition.set now c l) l

/-- The status after a cycle. Only a deployment that was applied counts as having observed the
generation of the operator resource. -/
def Report.status (r : Report) (s : Settings) (operator : OperatorResource) (now : Instant)
    (old : OperatorStatus) : OperatorStatus :=
  let new := { old with
    conditions := setAll now (r.conditions s operator) old.conditions
    readyReplicas := (r.current.map Deployment.readyReplicas).getD 0 }
  match r.applied with
  | none => new
  | some (d, revision) =>
    let new := { new with latestRevision := revision }
    match d.metadata.generation with
    | none => new
    | some generation =>
      { new with
        observedGeneration := operator.generation
        generations := GenerationRecord.set
          ⟨group, resource, s.targetSpace, s.deploymentName, generation, ""⟩ new.generations }

def isSettled (s : Settings) (status : OperatorStatus) : Bool :=
  Condition.isTrue (WorkloadCondition.typeOf s.conditionPrefix WorkloadCondition.availableSuffix)
    status.conditions &&
  Condition.isFalse (WorkloadCondition.typeOf s.conditionPrefix WorkloadCondition.progressingSuffix)
    status.conditions

/-- Nothing is deployed as long as nothing is observed. -/
def waitForConfig (s : Settings) : Program (Except Error Action) := do
  let conditions :=
    [WorkloadCondition.waiting s.conditionPrefix,
     WorkloadCondition.workloadDegraded s.conditionPrefix []]
  match ← updateStatus fun now status =>
      { status with conditions := setAll now conditions status.conditions } with
  | .error e => pure (.error e)
  | .ok _ => pure (.ok .requeueRateLimited)

def examine (s : Settings) (operator : OperatorResource) : Program Report := do
  let (prerequisitesChanged, errors) ← applyPrerequisites s operator.spec
  let recorded := GenerationRecord.expected operator.statusOrEmpty.generations group resource
    s.targetSpace s.deploymentName
  let rolled ← rollOut s operator prerequisitesChanged recorded
  let (applied, errors) ← match rolled with
    | .ok applied => pure (some applied, errors)
    | .error e => do
      publish (.warning "DeploymentUpdateFailed"
        ("Failed to apply deployment " ++ s.deploymentName ++ ": " ++ e.message))
      pure (none, errors ++ [e])
  -- what was applied just now tells its generation itself
  let recorded := (applied.bind (·.1.metadata.generation)) <|> recorded
  -- the cache may not hold yet what was applied just now
  let current ← match applied with
    | some (d, _) => pure (some d)
    | none => do pure ((← view).deployment? s)
  let problem ← availability s current
  pure { applied, current, recorded, problem, errors }

def cycle (s : Settings) : Program (Except Error Action) := do
  match ← Program.ask .getOperator with
  | .error e => pure (.error e)
  | .ok operator =>
    if operator.spec.managementState ≠ .managed then pure (.ok .awaitChange)
    else
      match Document.ofJson operator.spec.observedConfig with
      | .error e => pure (.error e)
      | .ok observed =>
        if observed.isEmpty then waitForConfig s
        else
          let report ← examine s operator
          match ← updateStatus (report.status s operator) with
          | .error e => pure (.error (.several ((report.errors ++ [e]).map (·.message))))
          | .ok (status, _) =>
            if !report.errors.isEmpty then
              pure (.error (.several (report.errors.map (·.message))))
            else pure (.ok (if isSettled s status then .awaitChange else .requeueRateLimited))

end RolloutControl.Workload
