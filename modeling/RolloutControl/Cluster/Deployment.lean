import RolloutControl.Cluster.Metadata
/-! Deployments, as far as the operator sets and reads them, and their JSON form. -/

namespace RolloutControl

inductive VolumeSource
  | configMap (name : String)
  | secret (name : String) (optional : Bool)
deriving DecidableEq, Repr

structure Volume where
  name : String
  source : VolumeSource
deriving DecidableEq, Repr

structure Mount where
  volume : String
  path : String
deriving DecidableEq, Repr

structure PodTemplate where
  name : String
  labels : Labels
  annotations : Labels
  serviceAccount : String
  image : String
  args : List String
  env : List (String × String)
  mounts : List Mount
  volumes : List Volume
deriving DecidableEq, Inhabited

structure DeploymentSpec where
  replicas : Int
  selector : Labels
  template : PodTemplate
deriving DecidableEq, Inhabited

structure DeploymentStatus where
  observedGeneration : Option Int := none
  replicas : Option Int := none
  ready : Option Int := none
deriving DecidableEq, Inhabited

structure Deployment where
  metadata : Metadata := {}
  spec : Option DeploymentSpec := none
  status : Option DeploymentStatus := none
deriving DecidableEq, Inhabited

namespace Volume

def toJson (v : Volume) : Json :=
  match v.source with
  | .configMap name => Json.object [("name", .str v.name), ("configMap", Json.object [("name", .str name)])]
  | .secret name optional =>
    Json.object
      [("name", .str v.name),
       ("secret", Json.object (("secretName", .str name) :: if optional then [("optional", .bool true)] else []))]

end Volume

namespace PodTemplate

def containerName : String := "openshift-apiserver"

def port : Int := 8443

def containerJson (t : PodTemplate) : Json :=
  Json.object
    [("name", .str containerName), ("image", .str t.image), ("args", Json.strings t.args),
     ("env", .arr (t.env.map fun e => Json.object [("name", .str e.1), ("value", .str e.2)])),
     ("ports", .arr [Json.object [("name", .str "https"), ("containerPort", .int port)]]),
     ("volumeMounts", .arr (t.mounts.map fun m =>
       Json.object [("name", .str m.volume), ("mountPath", .str m.path)])),
     ("readinessProbe", Json.object [("httpGet", Json.object
       [("scheme", .str "HTTPS"), ("port", .int port), ("path", .str "readyz")])])]

def toJson (t : PodTemplate) : Json :=
  Json.object
    [("metadata", Json.object
       [("name", .str t.name), ("labels", Json.ofLabels t.labels),
        ("annotations", Json.ofLabels t.annotations)]),
     ("spec", Json.object
       [("serviceAccountName", .str t.serviceAccount), ("priorityClassName", .str "system-node-critical"),
        ("containers", .arr [t.containerJson]), ("volumes", .arr (t.volumes.map Volume.toJson))])]

end PodTemplate

namespace DeploymentSpec

/-- One replica is replaced after the other, and never more than the wanted number run. -/
def strategyJson : Json :=
  Json.object
    [("type", .str "RollingUpdate"),
     ("rollingUpdate", Json.object [("maxUnavailable", .int 1), ("maxSurge", .int 0)])]

def toJson (s : DeploymentSpec) : Json :=
  Json.object
    [("replicas", .int s.replicas),
     ("selector", Json.object [("matchLabels", Json.ofLabels s.selector)]),
     ("strategy", strategyJson), ("template", s.template.toJson)]

end DeploymentSpec

namespace DeploymentStatus

def toJson (s : DeploymentStatus) : Json :=
  Json.object (Json.present
    [("observedGeneration", s.observedGeneration.map .int), ("readyReplicas", s.ready.map .int),
     ("replicas", s.replicas.map .int)])

end DeploymentStatus

namespace Deployment

def readyReplicas (d : Deployment) : Int := (d.status.bind (·.ready)).getD 0

def observedGeneration (d : Deployment) : Int := (d.status.bind (·.observedGeneration)).getD 0

def generation (d : Deployment) : Int := d.metadata.generation.getD 0

def podLabel? (d : Deployment) (label : String) : Option String :=
  d.spec.bind fun s => s.template.labels.get? label

def describe (d : Deployment) : String :=
  "deployment/" ++ d.metadata.anyName ++ "." ++ d.metadata.space.getD ""

def toJson (d : Deployment) : Json :=
  Json.object (Json.present
    [("apiVersion", some (.str "apps/v1")), ("kind", some (.str "Deployment")),
     ("metadata", some d.metadata.toJson), ("spec", d.spec.map DeploymentSpec.toJson),
     ("status", d.status.map DeploymentStatus.toJson)])

end Deployment

end RolloutControl
