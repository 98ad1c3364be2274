import RolloutControl.Decode.Tree
import RolloutControl.Yaml.Node
/-! Reading values from YAML documents. Lists and maps are read up to a depth, and the number of aliases
that are followed is bounded by the size of the document. -/

namespace RolloutControl

namespace Tree

/-- A node that is no alias. Its items are read by `inner`, unless they are too deep already. -/
def ofContent (inner : Option (Yaml.Node → Tree)) (n : Yaml.Node) : Tree :=
  let tagged (tag : Option Yaml.Tag) (t : Tree) : Tree :=
    match tag with
    | some (.own _) => .own t
    | _ => t
  match n, inner with
  | .scalar s, _ => .scalar s
  | .seq tag items, some f => tagged tag (.seq false (items.map f))
  | .map tag entries, some f => tagged tag (.map (entries.map fun e => (f e.1, f e.2)))
  | _, _ => .tooDeep

def ofNode (named : Nat → Option Yaml.Node) : (depth : Nat) → Yaml.Node → Tree
  | 0, n => one none n
  | depth + 1, n => one (some (ofNode named depth)) n
where
  one (inner : Option (Yaml.Node → Tree)) : Yaml.Node → Tree
    | .alias number => .alias fun _ => ofContent inner ((named number).getD .empty)
    | n => ofContent inner n

end Tree

namespace Yaml

/-- How deep lists and maps may stand in one another. -/
def depthLimit : Nat := 128

/-- How many aliases may be followed for each unit of a document's size. -/
def aliasLimit : Nat := 100

def decode? {α : Type} (f : Tree → Decoding α) (text : String) : Option α := do
  let g ← Graph.ofText? text
  ((f (.ofNode g.node? depthLimit g.root)).run' (aliasLimit * g.root.weight)).toOption

end Yaml

end RolloutControl
