import RolloutControl.Cluster.Manifest
import RolloutControl.Cluster.Object
import RolloutControl.Document.Merge
import RolloutControl.Settings.Basic
import RolloutControl.Status.Operator
import RolloutControl.Yaml.Printer
/-! What the operand is given: the objects around it, and the configuration it reads. -/

namespace RolloutControl.Operand

/-- The key of the configuration in its config map, and the name of the file it becomes. -/
def configKey : String := "config.yaml"

def configPath (s : Settings) : String :=
  "/var/run/configmaps/" ++ s.objects.operandConfig ++ "/" ++ configKey

/-- The objects that are applied before the configuration. -/
def manifests (s : Settings) : List Manifest :=
  [.namespaceOf s.targetSpace, .serviceAccount s.targetSpace s.objects.serviceAccount,
   .service s.targetSpace s.objects.service s.encryption.podSelector]

def defaults : Document :=
  Document.ofFields
    [("apiVersion", .str "openshiftcontrolplane.config.openshift.io/v1"),
     ("kind", .str "OpenShiftAPIServerConfig"),
     ("servingInfo", Json.object
       [("bindAddress", .str "0.0.0.0:8443"),
        ("certFile", .str "/var/run/secrets/serving-cert/tls.crt"),
        ("keyFile", .str "/var/run/secrets/serving-cert/tls.key")]),
     ("storageConfig", Json.object
       [("ca", .str "/var/run/configmaps/etcd-serving-ca/ca-bundle.crt"),
        ("certFile", .str "/var/run/secrets/etcd-client/tls.crt"),
        ("keyFile", .str "/var/run/secrets/etcd-client/tls.key")])]

/-- The defaults, then what is observed, then the overrides; the later ones win. -/
def render (spec : OperatorSpec) : Except Error Document := do
  let observed ← Document.ofJson spec.observedConfig
  let overrides ← Document.ofJson spec.overrides
  .ok ((defaults.merge observed).merge overrides)

def configMap (s : Settings) (rendered : Document) : ConfigMap where
  metadata := { name := some s.objects.operandConfig, space := some s.targetSpace }
  data := some (Dict.ofList [(configKey, rendered.toJson.toYaml)])

end RolloutControl.Operand
