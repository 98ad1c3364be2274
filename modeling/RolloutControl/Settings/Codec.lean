import RolloutControl.Settings.Basic
import RolloutControl.Decode.Yaml
/-! Reading and writing settings. Every field may be missing, and unknown fields are ignored. -/

namespace RolloutControl

namespace Tree

def natural (type : IntegerType) (t : Tree) : Decoding Nat := Int.toNat <$> t.integer type

end Tree

namespace ObjectNames

def ofTree (t : Tree) : Decoding ObjectNames := do
  let es ← t.record "ObjectNames" ["serviceAccount", "service", "operandConfig",
    "dependencyConfigMaps", "dependencySecrets", "etcdNamespace", "etcdEndpoints", "imageConfig",
    "ingressConfig", "projectConfig", "proxyConfig"]
  let d : ObjectNames := {}
  let text (field default : String) := Tree.withDefault es field default Tree.string
  let texts (field : String) (default : List String) :=
    Tree.withDefault es field default (Tree.list Tree.string)
  pure {
    serviceAccount := ← text "serviceAccount" d.serviceAccount
    service := ← text "service" d.service
    operandConfig := ← text "operandConfig" d.operandConfig
    dependencyConfigMaps := ← texts "dependencyConfigMaps" d.dependencyConfigMaps
    dependencySecrets := ← texts "dependencySecrets" d.dependencySecrets
    etcdSpace := ← text "etcdNamespace" d.etcdSpace
    etcdEndpoints := ← text "etcdEndpoints" d.etcdEndpoints
    imageConfig := ← text "imageConfig" d.imageConfig
    ingressConfig := ← text "ingressConfig" d.ingressConfig
    projectConfig := ← text "projectConfig" d.projectConfig
    proxyConfig := ← text "proxyConfig" d.proxyConfig }

def toJson (o : ObjectNames) : Json :=
  Json.object
    [("serviceAccount", .str o.serviceAccount), ("service", .str o.service),
     ("operandConfig", .str o.operandConfig),
     ("dependencyConfigMaps", Json.strings o.dependencyConfigMaps),
     ("dependencySecrets", Json.strings o.dependencySecrets),
     ("etcdNamespace", .str o.etcdSpace), ("etcdEndpoints", .str o.etcdEndpoints),
     ("imageConfig", .str o.imageConfig), ("ingressConfig", .str o.ingressConfig),
     ("projectConfig", .str o.projectConfig), ("proxyConfig", .str o.proxyConfig)]

end ObjectNames

namespace Timing

def ofTree (t : Tree) : Decoding Timing := do
  let es ← t.record "Timing" ["configObserverResyncSeconds", "workloadResyncSeconds",
    "backoffBaseMillis", "backoffMaxSeconds"]
  let d : Timing := {}
  let number (field : String) (default : Nat) :=
    Tree.withDefault es field default (Tree.natural Tree.u64)
  pure {
    observationResyncSeconds := ← number "configObserverResyncSeconds" d.observationResyncSeconds
    workloadResyncSeconds := ← number "workloadResyncSeconds" d.workloadResyncSeconds
    backoffBaseMillis := ← number "backoffBaseMillis" d.backoffBaseMillis
    backoffMaxSeconds := ← number "backoffMaxSeconds" d.backoffMaxSeconds }

def toJson (t : Timing) : Json :=
  Json.object
    [("configObserverResyncSeconds", .int t.observationResyncSeconds),
     ("workloadResyncSeconds", .int t.workloadResyncSeconds),
     ("backoffBaseMillis", .int t.backoffBaseMillis),
     ("backoffMaxSeconds", .int t.backoffMaxSeconds)]

end Timing

namespace EncryptionSettings

def ofTree (t : Tree) : Decoding EncryptionSettings := do
  let es ← t.record "EncryptionSource" ["enabled", "namespace", "podSelector", "revisionLabel",
    "secretPrefix", "providerConfigPath"]
  let d : EncryptionSettings := {}
  let text (field default : String) := Tree.withDefault es field default Tree.string
  pure {
    enabled := ← Tree.withDefault es "enabled" d.enabled Tree.boolean
    space := ← text "namespace" d.space
    podSelector := ← Tree.withDefault es "podSelector" d.podSelector (Tree.dict Tree.string)
    revisionLabel := ← text "revisionLabel" d.revisionLabel
    secretPrefix := ← text "secretPrefix" d.secretPrefix
    providerConfigPath := ← text "providerConfigPath" d.providerConfigPath }

def toJson (e : EncryptionSettings) : Json :=
  Json.object
    [("enabled", .bool e.enabled), ("namespace", .str e.space),
     ("podSelector", Json.ofLabels e.podSelector), ("revisionLabel", .str e.revisionLabel),
     ("secretPrefix", .str e.secretPrefix), ("providerConfigPath", .str e.providerConfigPath)]

end EncryptionSettings

namespace Settings

def ofTree (t : Tree) : Decoding Settings := do
  let es ← t.record "OperatorConfig" ["operatorNamespace", "targetNamespace", "configNamespace",
    "operatorName", "deploymentName", "conditionPrefix", "image", "replicas", "objects", "timing",
    "interestingNamespaces", "apiGroupVersions", "encryption"]
  let d : Settings := {}
  let text (field default : String) := Tree.withDefault es field default Tree.string
  let texts (field : String) (default : List String) :=
    Tree.withDefault es field default (Tree.list Tree.string)
  pure {
    operatorSpace := ← text "operatorNamespace" d.operatorSpace
    targetSpace := ← text "targetNamespace" d.targetSpace
    configSpace := ← text "configNamespace" d.configSpace
    operatorName := ← text "operatorName" d.operatorName
    deploymentName := ← text "deploymentName" d.deploymentName
    conditionPrefix := ← text "conditionPrefix" d.conditionPrefix
    image := ← text "image" d.image
    replicas := ← Tree.withDefault es "replicas" d.replicas (Tree.integer Tree.i32)
    objects := ← Tree.withDefault es "objects" d.objects ObjectNames.ofTree
    timing := ← Tree.withDefault es "timing" d.timing Timing.ofTree
    interestingSpaces := ← texts "interestingNamespaces" d.interestingSpaces
    groupVersions := ← texts "apiGroupVersions" d.groupVersions
    encryption := ← Tree.withDefault es "encryption" d.encryption EncryptionSettings.ofTree }

def toJson (s : Settings) : Json :=
  Json.object
    [("operatorNamespace", .str s.operatorSpace), ("targetNamespace", .str s.targetSpace),
     ("configNamespace", .str s.configSpace), ("operatorName", .str s.operatorName),
     ("deploymentName", .str s.deploymentName), ("conditionPrefix", .str s.conditionPrefix),
     ("image", .str s.image), ("replicas", .int s.replicas), ("objects", s.objects.toJson),
     ("timing", s.timing.toJson), ("interestingNamespaces", Json.strings s.interestingSpaces),
     ("apiGroupVersions", Json.strings s.groupVersions), ("encryption", s.encryption.toJson)]

def ofYaml (text : String) : Except Error Settings :=
  match Yaml.decode? ofTree text with
  | none => .error .yaml
  | some s =>
    match s.validate with
    | .error p => .error (.settings p)
    | .ok () => .ok s

end Settings

end RolloutControl
