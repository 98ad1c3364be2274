import RolloutControl.Cluster.Metadata
import RolloutControl.Error
/-! The settings of the operator: where things live, what they are called, and how often to look. -/

namespace RolloutControl

structure ObjectNames where
  serviceAccount : String := "openshift-apiserver-sa"
  service : String := "api"
  operandConfig : String := "config"
  dependencyConfigMaps : List String := ["config", "etcd-serving-ca", "trusted-ca-bundle"]
  dependencySecrets : List String := ["etcd-client", "serving-cert", "encryption-config"]
  etcdSpace : String := "openshift-etcd"
  etcdEndpoints : String := "etcd-endpoints"
  imageConfig : String := "image-config"
  ingressConfig : String := "ingress-config"
  projectConfig : String := "project-config"
  proxyConfig : String := "proxy-config"
deriving DecidableEq, Inhabited

structure Timing where
  observationResyncSeconds : Nat := 60
  workloadResyncSeconds : Nat := 60
  backoffBaseMillis : Nat := 5
  backoffMaxSeconds : Nat := 1000
deriving DecidableEq, Inhabited

structure EncryptionSettings where
  enabled : Bool := true
  space : String := "openshift-apiserver"
  podSelector : Labels := Dict.ofList [("apiserver", "true")]
  revisionLabel : String := "revision"
  secretPrefix : String := "encryption-config"
  providerConfigPath : String := "/var/run/secrets/encryption-config/encryption-config"
deriving DecidableEq, Inhabited

structure Settings where
  operatorSpace : String := "openshift-apiserver-operator"
  targetSpace : String := "openshift-apiserver"
  configSpace : String := "openshift-config"
  operatorName : String := "cluster"
  deploymentName : String := "apiserver"
  conditionPrefix : String := "APIServer"
  image : String := "quay.io/openshift/origin-openshift-apiserver:latest"
  replicas : Int := 3
  objects : ObjectNames := {}
  timing : Timing := {}
  interestingSpaces : List String := []
  groupVersions : List String :=
    ["apps.openshift.io/v1", "authorization.openshift.io/v1", "build.openshift.io/v1",
     "image.openshift.io/v1", "project.openshift.io/v1", "quota.openshift.io/v1",
     "route.openshift.io/v1", "security.openshift.io/v1", "template.openshift.io/v1"]
  encryption : EncryptionSettings := {}
deriving DecidableEq, Inhabited

/-- A group and a version with one slash between them, neither of them empty. -/
def groupVersion? (text : String) : Option (String × String) :=
  let cs := text.toList
  let group := cs.takeWhile (· ≠ '/')
  match cs.dropWhile (· ≠ '/') with
  | [] => none
  | _ :: version =>
    if group.isEmpty || version.isEmpty || version.contains '/' then none
    else some (String.ofList group, String.ofList version)

inductive SpaceFilter
  | all
  | only (spaces : List String)
deriving DecidableEq, Repr

namespace SpaceFilter

/-- Objects without a namespace always pass. -/
def accepts : SpaceFilter → Option String → Bool
  | .all, _ => true
  | _, none => true
  | .only spaces, some s => spaces.contains s

end SpaceFilter

/-- How a reconcile loop paces itself, in milliseconds. -/
structure LoopTiming where
  resync : Option Nat := none
  base : Nat := 5
  max : Nat := 1000000
deriving DecidableEq, Repr, Inhabited

namespace Settings

def requiredTexts (s : Settings) : List (String × String) :=
  [("operatorNamespace", s.operatorSpace), ("targetNamespace", s.targetSpace),
   ("configNamespace", s.configSpace), ("operatorName", s.operatorName),
   ("deploymentName", s.deploymentName), ("image", s.image)]

def validate (s : Settings) : Except SettingsProblem Unit :=
  match s.requiredTexts.find? fun e => e.2 = "" with
  | some e => .error (.emptyField e.1)
  | none =>
    if s.replicas < 1 then .error (.tooFewReplicas s.replicas)
    else if s.timing.backoffBaseMillis = 0 ∨ s.timing.backoffMaxSeconds = 0 then
      .error .unboundedBackoff
    else
      match s.groupVersions.find? fun gv => (groupVersion? gv).isNone with
      | some gv => .error (.notGroupVersion gv)
      | none => .ok ()

def spaceFilter (s : Settings) : SpaceFilter :=
  if s.interestingSpaces.isEmpty then
    .only [s.operatorSpace, s.targetSpace, s.configSpace, s.objects.etcdSpace]
  else .only s.interestingSpaces

def loopTiming (s : Settings) (resyncSeconds : Nat) : LoopTiming where
  resync := if resyncSeconds = 0 then none else some (resyncSeconds * 1000)
  base := s.timing.backoffBaseMillis
  max := s.timing.backoffMaxSeconds * 1000

def observationTiming (s : Settings) : LoopTiming := s.loopTiming s.timing.observationResyncSeconds

def workloadTiming (s : Settings) : LoopTiming := s.loopTiming s.timing.workloadResyncSeconds

end Settings

end RolloutControl
