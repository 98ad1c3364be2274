import RolloutControl.Cluster.Deployment
/-! The objects that have to be there before the operand can run, and that never change by themselves. -/

namespace RolloutControl

inductive Manifest
  | namespaceOf (name : String)
  | serviceAccount (space name : String)
  | service (space name : String) (selector : Labels)
deriving DecidableEq

namespace Manifest

def kind : Manifest → String
  | .namespaceOf _ => "Namespace"
  | .serviceAccount _ _ => "ServiceAccount"
  | .service _ _ _ => "Service"

def name : Manifest → String
  | .namespaceOf name | .serviceAccount _ name | .service _ name _ => name

/-- Namespaces are in no namespace themselves. -/
def space : Manifest → String
  | .namespaceOf _ => ""
  | .serviceAccount space _ | .service space _ _ => space

/-- What the monitoring of the cluster looks for. -/
def monitoringLabels : Labels := Dict.ofList [("openshift.io/cluster-monitoring", "true")]

def toJson (m : Manifest) : Json :=
  let named := [("name", Json.str m.name), ("namespace", Json.str m.space)]
  let head := [("apiVersion", Json.str "v1"), ("kind", Json.str m.kind)]
  match m with
  | .namespaceOf name =>
    Json.object (head ++
      [("metadata", Json.object [("name", .str name), ("labels", Json.ofLabels monitoringLabels)])])
  | .serviceAccount _ _ => Json.object (head ++ [("metadata", Json.object named)])
  | .service _ _ selector =>
    let port := Json.object
      [("name", .str "https"), ("port", .int 443), ("targetPort", .int PodTemplate.port)]
    Json.object (head ++
      [("metadata", Json.object named),
       ("spec", Json.object [("selector", Json.ofLabels selector), ("ports", .arr [port])])])

end Manifest

end RolloutControl
