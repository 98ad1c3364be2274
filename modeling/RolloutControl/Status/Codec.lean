import RolloutControl.Status.Operator
/-! The JSON form of the operator resource. Missing fields take their defaults, empty texts and absent
times are left out, everything else is always written. -/

namespace RolloutControl

def Json.unlessEmpty (name value : String) : List (String × Option Json) :=
  [(name, if value = "" then none else some (.str value))]

namespace Tree

def instant (t : Tree) : Decoding Instant := do
  match Instant.parse? (← t.string) with
  | some i => pure i
  | none => throw .malformed

end Tree

namespace Verdict

def ofTree : Tree → Decoding Verdict :=
  Tree.variant [("True", .holds), ("False", .fails), ("Unknown", .unknown)]

end Verdict

namespace Condition

def toJson (c : Condition) : Json :=
  Json.object (Json.present (
    [("type", some (.str c.type)), ("status", some (.str c.verdict.text))] ++
      Json.unlessEmpty "reason" c.reason ++ Json.unlessEmpty "message" c.message ++
      [("lastTransitionTime", c.since.map fun i => .str i.text)]))

def ofTree (t : Tree) : Decoding Condition := do
  let es ← t.record "OperatorCondition" ["type", "status", "reason", "message", "lastTransitionTime"]
  pure {
    type := ← Tree.required es "type" Tree.string
    verdict := ← Tree.required es "status" Verdict.ofTree
    reason := ← Tree.withDefault es "reason" "" Tree.string
    message := ← Tree.withDefault es "message" "" Tree.string
    since := ← Tree.field es "lastTransitionTime" Tree.instant }

end Condition

namespace GenerationRecord

def toJson (r : GenerationRecord) : Json :=
  Json.object (Json.present (
    [("group", some (.str r.group)), ("resource", some (.str r.resource)),
     ("namespace", some (.str r.space)), ("name", some (.str r.name)),
     ("lastGeneration", some (.int r.lastGeneration))] ++ Json.unlessEmpty "hash" r.hash))

def ofTree (t : Tree) : Decoding GenerationRecord := do
  let es ← t.record "GenerationStatus"
    ["group", "resource", "namespace", "name", "lastGeneration", "hash"]
  pure {
    group := ← Tree.required es "group" Tree.string
    resource := ← Tree.required es "resource" Tree.string
    space := ← Tree.required es "namespace" Tree.string
    name := ← Tree.required es "name" Tree.string
    lastGeneration := ← Tree.required es "lastGeneration" (Tree.integer Tree.i64)
    hash := ← Tree.withDefault es "hash" "" Tree.string }

end GenerationRecord

namespace ManagementState

def names : List (String × ManagementState) :=
  [("Managed", .managed), ("Unmanaged", .unmanaged), ("Removed", .removed)]

def text : ManagementState → String
  | .managed => "Managed"
  | .unmanaged => "Unmanaged"
  | .removed => "Removed"

end ManagementState

namespace LogLevel

def names : List (String × LogLevel) :=
  [("Normal", .normal), ("Debug", .debug), ("Trace", .trace), ("TraceAll", .traceAll)]

def text : LogLevel → String
  | .normal => "Normal"
  | .debug => "Debug"
  | .trace => "Trace"
  | .traceAll => "TraceAll"

end LogLevel

namespace OperatorSpec

def toJson (s : OperatorSpec) : Json :=
  Json.object
    [("managementState", .str s.managementState.text), ("logLevel", .str s.logLevel.text),
     ("operatorLogLevel", .str s.operatorLogLevel.text), ("observedConfig", s.observedConfig),
     ("unsupportedConfigOverrides", s.overrides)]

def ofTree (t : Tree) : Decoding OperatorSpec := do
  let es ← t.record "OperatorSpec" ["managementState", "logLevel", "operatorLogLevel",
    "observedConfig", "unsupportedConfigOverrides"]
  pure {
    managementState := ← Tree.withDefault es "managementState" .managed
      (Tree.variant ManagementState.names)
    logLevel := ← Tree.withDefault es "logLevel" .normal (Tree.variant LogLevel.names)
    operatorLogLevel := ← Tree.withDefault es "operatorLogLevel" .normal (Tree.variant LogLevel.names)
    observedConfig := ← Tree.withDefault es "observedConfig" .null Tree.json
    overrides := ← Tree.withDefault es "unsupportedConfigOverrides" .null Tree.json }

end OperatorSpec

namespace OperatorStatus

def toJson (s : OperatorStatus) : Json :=
  Json.object
    [("observedGeneration", .int s.observedGeneration),
     ("conditions", .arr (s.conditions.map Condition.toJson)),
     ("readyReplicas", .int s.readyReplicas),
     ("generations", .arr (s.generations.map GenerationRecord.toJson)),
     ("latestAvailableRevision", .int s.latestRevision)]

def ofTree (t : Tree) : Decoding OperatorStatus := do
  let es ← t.record "OperatorStatus" ["observedGeneration", "conditions", "readyReplicas",
    "generations", "latestAvailableRevision"]
  pure {
    observedGeneration := ← Tree.withDefault es "observedGeneration" 0 (Tree.integer Tree.i64)
    conditions := ← Tree.withDefault es "conditions" [] (Tree.list Condition.ofTree)
    readyReplicas := ← Tree.withDefault es "readyReplicas" 0 (Tree.integer Tree.i32)
    generations := ← Tree.withDefault es "generations" [] (Tree.list GenerationRecord.ofTree)
    latestRevision := ← Tree.withDefault es "latestAvailableRevision" 0 (Tree.integer Tree.i64) }

end OperatorStatus

namespace OperatorResource

def toJson (r : OperatorResource) : Json :=
  Json.object (Json.present
    [("metadata", some r.metadata.toJson), ("spec", some r.spec.toJson),
     ("status", r.status.map OperatorStatus.toJson)])

def ofTree (t : Tree) : Decoding OperatorResource := do
  let es ← t.record "ApiServerOperator" ["metadata", "spec", "status"]
  pure {
    metadata := ← Tree.withDefault es "metadata" {} Metadata.ofTree
    spec := ← Tree.withDefault es "spec" {} OperatorSpec.ofTree
    status := ← Tree.field es "status" OperatorStatus.ofTree }

end OperatorResource

end RolloutControl
