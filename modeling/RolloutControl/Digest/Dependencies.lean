import RolloutControl.Digest.Content
/-! The digests of everything that a workload depends on. They travel as annotations, so that the
next cycle can tell which dependencies have changed since. -/

namespace RolloutControl

inductive DependencyKind
  | configMap | secret
deriving DecidableEq, Repr

namespace DependencyKind

def text : DependencyKind → String
  | .configMap => "configmap"
  | .secret => "secret"

end DependencyKind

def dependencyKey (kind : DependencyKind) (space name : String) : String :=
  space ++ "." ++ name ++ "." ++ kind.text

/-- The digest per dependency; a dependency that does not exist has the empty one. -/
abbrev Dependencies := Dict String String

namespace Dependencies

def annotationMark : String := "operator.apiserver.k8s.io/dep-"

def addConfigMap (d : Dependencies) (space name : String) (cm : Option ConfigMap) : Dependencies :=
  d.insert (dependencyKey .configMap space name) ((cm.map ConfigMap.digest).getD "")

def addSecret (d : Dependencies) (space name : String) (s : Option Secret) : Dependencies :=
  d.insert (dependencyKey .secret space name) ((s.map Secret.digest).getD "")

def toAnnotations (d : Dependencies) : Labels :=
  Dict.ofList (d.entries.map fun e => (annotationMark ++ e.1, e.2))

def afterMark? (key : String) : Option String :=
  let mark := annotationMark.toList
  if mark.isPrefixOf key.toList then some (String.ofList (key.toList.drop mark.length)) else none

/-- Annotations without the mark are somebody else's. -/
def ofAnnotations (annotations : Labels) : Dependencies :=
  Dict.ofList (annotations.entries.filterMap fun e => (afterMark? e.1).map (·, e.2))

/-- The keys that are new, gone, or have another digest than before. -/
def changedFrom (d previous : Dependencies) : List String :=
  ascending ((d.entries.filter fun e => previous.get? e.1 ≠ some e.2).map (·.1) ++
    previous.keys.filter fun k => !d.contains k)

end Dependencies

end RolloutControl
