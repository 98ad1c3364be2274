import RolloutControl.Cluster.Metadata
import RolloutControl.Text.Blank
/-! The objects of the cluster that the operator reads, as far as it reads them. -/

namespace RolloutControl

abbrev Bytes := List UInt8

structure ConfigMap where
  metadata : Metadata := {}
  data : Option (Dict String String) := none
  binaryData : Option (Dict String Bytes) := none
deriving DecidableEq, Inhabited

structure Secret where
  metadata : Metadata := {}
  data : Option (Dict String Bytes) := none
  stringData : Option (Dict String String) := none
  type : Option String := none
deriving DecidableEq, Inhabited

structure Pod where
  metadata : Metadata := {}
  phase : Option String := none
deriving DecidableEq, Inhabited

structure ServiceCondition where
  type : String
  status : String
  message : Option String := none
deriving DecidableEq, Inhabited

structure ApiService where
  metadata : Metadata := {}
  conditions : List ServiceCondition := []
deriving DecidableEq, Inhabited

namespace ConfigMap

/-- The text under a key, without white space around it, unless nothing is left. -/
def value? (cm : ConfigMap) (key : String) : Option String :=
  ((cm.data.getD ∅).get? key).bind fun v =>
    let v := Text.trim v
    if v = "" then none else some v

end ConfigMap

end RolloutControl
