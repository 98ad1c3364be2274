/-! The generations that objects had when they were last applied. -/

namespace RolloutControl

structure GenerationRecord where
  group : String
  resource : String
  space : String
  name : String
  lastGeneration : Int
  hash : String := ""
deriving DecidableEq, Repr, Inhabited

namespace GenerationRecord

def isAbout (r : GenerationRecord) (group resource space name : String) : Bool :=
  r.group == group && r.resource == resource && r.space == space && r.name == name

def expected (l : List GenerationRecord) (group resource space name : String) : Option Int :=
  (l.find? fun r => r.isAbout group resource space name).map (·.lastGeneration)

/-- Puts a record in the place of the first one about its object, or else at the end. -/
def set (new : GenerationRecord) : List GenerationRecord → List GenerationRecord
  | [] => [new]
  | r :: l =>
    if r.isAbout new.group new.resource new.space new.name then new :: l else r :: set new l

/-- Whether an object has seen its own last generation, and nobody else has made another one. -/
def isObserved (recorded : Option Int) (generation observed : Int) : Bool :=
  observed == generation && recorded.all (· == generation)

end GenerationRecord

end RolloutControl
