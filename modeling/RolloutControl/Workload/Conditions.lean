import RolloutControl.Availability
import RolloutControl.Status.Operator
/-! What the status says about the operand. -/

namespace RolloutControl.WorkloadCondition

def availableSuffix : String := "DeploymentAvailable"
def progressingSuffix : String := "DeploymentProgressing"
def degradedSuffix : String := "DeploymentDegraded"
def workloadSuffix : String := "WorkloadDegraded"

def typeOf (conditionPrefix suffix : String) : String := conditionPrefix ++ suffix

def asExpected : String := "AsExpected"

def available (conditionPrefix : String) (problem : Option Unavailable) : Condition :=
  let type := typeOf conditionPrefix availableSuffix
  match problem with
  | none => { type, verdict := .holds, reason := asExpected }
  | some u => { type, verdict := .fails, reason := u.reason, message := u.message }

/-- Nothing is available as long as there is nothing to deploy. -/
def waiting (conditionPrefix : String) : Condition where
  type := typeOf conditionPrefix availableSuffix
  verdict := .fails
  reason := "PreconditionNotFulfilled"
  message := "waiting for the observed configuration to be populated"

def deploymentLag (recorded : Option Int) (d : Deployment) : List String :=
  let generation := d.generation
  let observed := d.observedGeneration
  if GenerationRecord.isObserved recorded generation observed then []
  else if observed ≠ generation then
    [d.describe ++ ": observed generation is " ++ Text.integer observed ++
      ", desired generation is " ++ Text.integer generation ++ "."]
  else
    [d.describe ++ ": generation is " ++ Text.integer generation ++
      ", last applied generation is " ++ Text.integer (recorded.getD 0) ++ "."]

def operatorLag (generation observed : Int) : List String :=
  if generation = observed then []
  else
    ["operator resource: observed generation is " ++ Text.integer observed ++
      ", desired generation is " ++ Text.integer generation ++ "."]

def progressing (conditionPrefix : String) (d : Option Deployment) (recorded : Option Int)
    (generation observed : Int) : Condition :=
  let type := typeOf conditionPrefix progressingSuffix
  match (d.map (deploymentLag recorded)).getD [] ++ operatorLag generation observed with
  | [] => { type, verdict := .fails, reason := asExpected }
  | messages => { type, verdict := .holds, reason := "NewGeneration", message := joinLines messages }

def degraded (conditionPrefix : String) (d : Option Deployment) (desired : Int) : Condition :=
  let type := typeOf conditionPrefix degradedSuffix
  match d with
  | none =>
    { type, verdict := .holds, reason := "NoDeployment", message := "deployment does not exist yet" }
  | some d =>
    if d.readyReplicas < desired then
      { type, verdict := .holds, reason := "UnavailablePod"
        message := Text.integer (desired - d.readyReplicas) ++ " of " ++ Text.integer desired ++
          " requested instances are unavailable for " ++ d.describe }
    else { type, verdict := .fails, reason := asExpected }

def workloadDegraded (conditionPrefix : String) (errors : List Error) : Condition :=
  let type := typeOf conditionPrefix workloadSuffix
  match errors with
  | [] => { type, verdict := .fails }
  | errors =>
    { type, verdict := .holds, reason := "SyncError", message := joinLines (errors.map (·.message)) }

def noDeployment (s : Settings) : Unavailable where
  reason := "NoDeployment"
  message := "deployment/" ++ s.deploymentName ++ "." ++ s.targetSpace ++ ": could not be retrieved"

def noPod (s : Settings) : Unavailable where
  reason := "NoAPIServerPod"
  message := "no " ++ s.deploymentName ++ " pods available on any node"

end RolloutControl.WorkloadCondition
