/-! The tokens of YAML text. Where the text only shows columns, tokens say where block collections
begin and end. -/

namespace RolloutControl.Yaml

/-- How a scalar is written, as far as that tells what it stands for. -/
inductive Form
  | plain
  /-- As a block whose lines are kept. -/
  | literal
  | quoted
deriving DecidableEq, Repr

inductive Token
  | version (major minor : Nat)
  /-- What a tag begins with when it is written with this handle. -/
  | handle (name start : String)
  | documentStart | documentEnd
  | openBlockSeq | openBlockMap | closeBlock
  | openFlowSeq | closeFlowSeq | openFlowMap | closeFlowMap
  | dash | comma | key | value
  | alias (name : String)
  | anchor (name : String)
  | tag (handle rest : String)
  | scalar (form : Form) (text : String)
deriving DecidableEq, Repr

end RolloutControl.Yaml
