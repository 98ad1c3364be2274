import RolloutControl.Document.Basic
import RolloutControl.Dict
/-! The dotted names of the places where two documents differ, ascending. Objects are compared key
by key, everything else as a whole. -/

namespace RolloutControl

/-- The name of a key inside of the object that has the first name. -/
def dotted (outer key : String) : String := if outer = "" then key else outer ++ "." ++ key

namespace Fields

open Json

mutual

def diffValue (name : String) : Json → Option Json → List String
  | .obj a, some (.obj b) => diff name a b
  | x, y => if y.any x.same then [] else [name]

def diff (outer : String) (a : List (String × Json)) (b : Fields) : List String :=
  diffKnown outer a b ++
    (b.filter fun e => (Assoc.lookup e.1 a).isNone).map fun e => dotted outer e.1

def diffKnown (outer : String) : List (String × Json) → Fields → List String
  | [], _ => []
  | (k, x) :: r, b => diffValue (dotted outer k) x (Assoc.lookup k b) ++ diffKnown outer r b

end

end Fields

namespace Document

def diff (d e : Document) : List String := ascending (Fields.diff "" d.fields e.fields)

end Document

end RolloutControl
