import RolloutControl.Cache.Basic
import RolloutControl.Cluster.Deployment
/-! Everything that the operator reads of the cluster, apart from its own resource. -/

namespace RolloutControl

instance : ClusterObject Deployment := ⟨Deployment.metadata⟩

structure ClusterView where
  configMaps : Cache ConfigMap := ∅
  secrets : Cache Secret := ∅
  pods : Cache Pod := ∅
  apiServices : Cache ApiService := ∅
  deployments : Cache Deployment := ∅

namespace ClusterView

def configMap? (v : ClusterView) (space name : String) : Option ConfigMap :=
  Cache.within? v.configMaps space name

def secret? (v : ClusterView) (space name : String) : Option Secret :=
  Cache.within? v.secrets space name

def deployment? (v : ClusterView) (s : Settings) : Option Deployment :=
  Cache.within? v.deployments s.targetSpace s.deploymentName

end ClusterView

end RolloutControl
