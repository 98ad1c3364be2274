/-! Tags of YAML nodes, by what they mean to a reader. -/

namespace RolloutControl.Yaml

inductive Tag
  | null | bool | int | float
  /-- A tag that the document has for itself, by its name. -/
  | own (name : String)
  | other
deriving DecidableEq, Repr

namespace Tag

def coreStart : String := "tag:yaml.org,2002:"

/-- What a tag means. One that is no text, which a character zero shows, has no name. -/
def ofText (s : String) : Tag :=
  if s == coreStart ++ "null" then .null
  else if s == coreStart ++ "bool" then .bool
  else if s == coreStart ++ "int" then .int
  else if s == coreStart ++ "float" then .float
  else
    match s.toList with
    | ['!'] => .own "!"
    | '!' :: r => if r.contains '\x00' then .other else .own (String.ofList r)
    | _ => .other

end Tag

end RolloutControl.Yaml
