import RolloutControl.Yaml.Plain
import RolloutControl.Yaml.Tag
import RolloutControl.Yaml.Token.Basic
/-! Scalars of YAML with their tags, and what they stand for. A plain scalar shows its kind by itself, any
other one is text, and a tag of the core schema has the last word. -/

namespace RolloutControl.Yaml

structure Scalar where
  tag : Option Tag := none
  form : Form := .plain
  text : String := ""
deriving DecidableEq, Repr

namespace Scalar

/-- What stands where nothing is written. -/
def empty : Scalar := {}

def isVoid (s : Scalar) : Bool := s.form = .plain && s.text = ""

/-- Whether a reader of one kind looks at the text: at a plain one, and at a literal one of that kind. -/
def isReadAs (kind : Tag) (s : Scalar) : Bool :=
  s.form = .plain || (s.form = .literal && s.tag = some kind)

def saysNull (s : Scalar) : Bool := s.form = .plain && (s.text = "" || Plain.isNull s.text)

/-- Whether the scalar counts as missing where a value may be missing. One that is tagged as null must
be null. -/
def isMissing? (s : Scalar) : Option Bool :=
  if s.form ≠ .plain then some false
  else
    match s.tag with
    | none => some s.saysNull
    | some .null => if Plain.isNull s.text then some true else none
    | some _ => some false

/-- What the scalar stands for where any value may stand. Tags of the document's own have no value. -/
def value? (s : Scalar) : Option Plain :=
  match s.tag with
  | some .null => if Plain.isNull s.text then some .null else none
  | some .bool => (Plain.bool? s.text).map .bool
  | some .int => (Plain.int? s.text).map .int
  | some .float =>
    if Plain.isSpecial s.text then some .special else (Plain.float? s.text.toList).map .decimal
  | some (.own _) => none
  | some .other => some .text
  | none => some (if s.form = .plain then .ofText s.text else .text)

end Scalar

end RolloutControl.Yaml
