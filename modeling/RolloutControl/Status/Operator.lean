import RolloutControl.Cluster.Metadata
import RolloutControl.Status.Condition
import RolloutControl.Status.Generation
/-! The resource that the operator reconciles: what is wanted of the operand, and how it is doing. -/

namespace RolloutControl

inductive ManagementState
  | managed | unmanaged | removed
deriving DecidableEq, Repr, Inhabited

inductive LogLevel
  | normal | debug | trace | traceAll
deriving DecidableEq, Repr, Inhabited

namespace LogLevel

def verbosity : LogLevel → Nat
  | .normal => 2
  | .debug => 4
  | .trace => 6
  | .traceAll => 8

end LogLevel

structure OperatorSpec where
  managementState : ManagementState := .managed
  logLevel : LogLevel := .normal
  operatorLogLevel : LogLevel := .normal
  observedConfig : Json := .null
  overrides : Json := .null
deriving DecidableEq, Repr, Inhabited

def OperatorSpec.same (s t : OperatorSpec) : Bool :=
  s.managementState = t.managementState && s.logLevel = t.logLevel &&
    s.operatorLogLevel = t.operatorLogLevel && s.observedConfig.same t.observedConfig &&
    s.overrides.same t.overrides

structure OperatorStatus where
  observedGeneration : Int := 0
  conditions : List Condition := []
  readyReplicas : Int := 0
  generations : List GenerationRecord := []
  latestRevision : Int := 0
deriving DecidableEq, Repr, Inhabited

structure OperatorResource where
  metadata : Metadata := {}
  spec : OperatorSpec := {}
  status : Option OperatorStatus := none
deriving DecidableEq, Inhabited

namespace OperatorResource

def generation (r : OperatorResource) : Int := r.metadata.generation.getD 0

def version (r : OperatorResource) : String := r.metadata.resourceVersion.getD ""

def statusOrEmpty (r : OperatorResource) : OperatorStatus := r.status.getD {}

end OperatorResource

end RolloutControl
