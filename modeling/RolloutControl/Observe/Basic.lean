import RolloutControl.Cache.View
import RolloutControl.Document.Merge
import RolloutControl.Event
/-! Observers turn facts about the cluster into parts of one document. Every observer owns some paths
of the document, no two of them own paths of which one leads to the other, and so the parts can be
merged in any order. -/

namespace RolloutControl

structure Facts where
  view : ClusterView
  settings : Settings

structure Observation where
  /-- The values at the paths of the observer. -/
  config : Document := ∅
  errors : List Error := []
  events : List Event := []

namespace Observation

def keep (existing : Document) (paths : List Path) (errors : List Error) (events : List Event) :
    Observation where
  config := existing.extract paths
  errors
  events

def join (a b : Observation) : Observation where
  config := a.config.merge b.config
  errors := a.errors ++ b.errors
  events := a.events ++ b.events

end Observation

structure Observer where
  name : String
  paths : List Path
  /-- What the observer sees, given the document as it is stored. -/
  observe : Facts → Document → Observation

def Path.overlaps (p q : Path) : Bool := (p.zip q).all fun e => e.1 == e.2

def Json.isBlank : Json → Bool
  | .null => true
  | .str s => s == ""
  | .arr l => l.isEmpty
  | .obj fs => fs.isEmpty
  | _ => false

/-- The event for a change of the value at a path. The first value that is not blank is no change. -/
def changeEvents (reason : String) (existing observed : Document) (path : Path) : List Event :=
  match (existing.get? path).filter fun j => !j.isBlank with
  | none => []
  | some previous =>
    let current := observed.get? path
    if current.any previous.same then []
    else
      [.normal reason (path.text ++ " changed from " ++ previous.compact ++ " to " ++
        ((current.map Json.compact).getD "<none>"))]

namespace Observer

def clash? (a b : Observer) : Option SettingsProblem :=
  a.paths.findSome? fun p => (b.paths.find? p.overlaps).map fun q => .overlap a.name b.name p q

def overlap? : List Observer → Option SettingsProblem
  | [] => none
  | a :: r => (r.findSome? a.clash?).or (overlap? r)

/-- What the observers see together, asked in the given order. -/
def observeIn (observers : List Observer) (order : List Nat) (facts : Facts) (existing : Document) :
    Observation :=
  (order.filterMap (observers[·]?)).foldl (fun acc o => acc.join (o.observe facts existing)) {}

end Observer

end RolloutControl
