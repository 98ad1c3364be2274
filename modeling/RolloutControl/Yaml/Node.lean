import RolloutControl.Assoc
import RolloutControl.Yaml.Scalar
import RolloutControl.Yaml.Token.Scan
/-! YAML documents as graphs of nodes. A node may carry a name, by which aliases refer to it. -/

namespace RolloutControl.Yaml

inductive Node
  | scalar (s : Scalar)
  | seq (tag : Option Tag) (items : List Node)
  | map (tag : Option Tag) (entries : List (Node × Node))
  /-- Another node, by the number of its name. -/
  | alias (number : Nat)
deriving Inhabited

namespace Node

def empty : Node := .scalar .empty

/-- Reading the nodes of a document from tokens. -/
structure Reading where
  tokens : List Token
  /-- What the tags with each handle begin with. -/
  handles : List (String × String)
  /-- The number of each name. -/
  names : List (String × Nat) := []
  /-- Which named node a number refers to, where the last entry counts. -/
  homes : List (Nat × Nat) := []
  /-- How many named nodes have begun. -/
  begun : Nat := 0
  /-- The named nodes that are complete. -/
  complete : List (Nat × Node) := []

namespace Reading

def rest (ts : List Token) (s : Reading) : Reading := { s with tokens := ts }

def tagText? (handle rest : String) (s : Reading) : Option String :=
  if handle = "" then some rest else (Assoc.lookup handle s.handles).map (· ++ rest)

/-- The name and the tag in front of a node, in either order. -/
def properties? (s : Reading) : Option (Option String × Option Tag × Reading) :=
  let tag (h r : String) := (s.tagText? h r).map fun t => some (Tag.ofText t)
  match s.tokens with
  | .anchor n :: .tag h r :: ts | .tag h r :: .anchor n :: ts => do
    some (some n, ← tag h r, s.rest ts)
  | .anchor n :: ts => some (some n, none, s.rest ts)
  | .tag h r :: ts => do some (none, ← tag h r, s.rest ts)
  | _ => some (none, none, s)

/-- Begins a node of this name. A name gets the number of names before it, and one that is used again
the number of all names, which another one may have already. -/
def enter (name : Option String) (s : Reading) : Reading :=
  match name with
  | none => s
  | some n =>
    let number := s.names.length
    { s with
      names := Assoc.insert n number s.names
      homes := (number, s.begun) :: s.homes
      begun := s.begun + 1 }

def leave (name : Option String) (place : Nat) (p : Node × Reading) : Node × Reading :=
  match name with
  | none => p
  | some _ => (p.1, { p.2 with complete := (place, p.1) :: p.2.complete })

end Reading

/-- Where a node stands. A block sequence that is the value of a key need not be indented. -/
inductive Place
  | inFlow | inBlock | atKey
deriving DecidableEq

def Place.isBlock (p : Place) : Bool := p ≠ .inFlow

mutual

def read? (fuel : Nat) (place : Place) (s : Reading) : Option (Node × Reading) :=
  match fuel with
  | 0 => none
  | fuel + 1 =>
    match s.tokens with
    | .alias n :: ts => do some (.alias (← Assoc.lookup n s.names), s.rest ts)
    | _ => do
      let (name, tag, t) ← s.properties?
      let p ← content? fuel place (name.isSome || tag.isSome) tag (t.enter name)
      some (Reading.leave name t.begun p)

/-- A node behind its name and tag; where there is either, it may be empty. -/
def content? (fuel : Nat) (place : Place) (mayBeEmpty : Bool) (tag : Option Tag) (s : Reading) :
    Option (Node × Reading) :=
  match fuel with
  | 0 => none
  | fuel + 1 =>
    match s.tokens with
    | .scalar form text :: ts => some (.scalar ⟨tag, form, text⟩, s.rest ts)
    | .openFlowSeq :: ts => flowItems? fuel tag [] true (s.rest ts)
    | .openFlowMap :: ts => flowEntries? fuel tag [] true (s.rest ts)
    | .dash :: _ =>
      if place = .atKey then bareItems? fuel tag [] s
      else if mayBeEmpty then some (.scalar { tag }, s)
      else none
    | .openBlockSeq :: ts =>
      if place.isBlock then blockItems? fuel tag [] (s.rest ts)
      else if mayBeEmpty then some (.scalar { tag }, s)
      else none
    | .openBlockMap :: ts =>
      if place.isBlock then blockEntries? fuel tag [] (s.rest ts)
      else if mayBeEmpty then some (.scalar { tag }, s)
      else none
    | _ => if mayBeEmpty then some (.scalar { tag }, s) else none

def readUnless? (fuel : Nat) (place : Place) (ends : List Token) (s : Reading) :
    Option (Node × Reading) :=
  match fuel with
  | 0 => none
  | fuel + 1 =>
    if s.tokens.head?.any ends.contains then some (empty, s) else read? fuel place s

def blockItems? (fuel : Nat) (tag : Option Tag) (done : List Node) (s : Reading) :
    Option (Node × Reading) :=
  match fuel with
  | 0 => none
  | fuel + 1 =>
    match s.tokens with
    | .dash :: ts => do
      let (n, s) ← readUnless? fuel .inBlock [.dash, .closeBlock] (s.rest ts)
      blockItems? fuel tag (n :: done) s
    | .closeBlock :: ts => some (.seq tag done.reverse, s.rest ts)
    | _ => none

/-- The items of a sequence that is no further right than the key before it. -/
def bareItems? (fuel : Nat) (tag : Option Tag) (done : List Node) (s : Reading) :
    Option (Node × Reading) :=
  match fuel with
  | 0 => none
  | fuel + 1 =>
    match s.tokens with
    | .dash :: ts => do
      let (n, s) ← readUnless? fuel .inBlock [.dash, .key, .value, .closeBlock] (s.rest ts)
      bareItems? fuel tag (n :: done) s
    | _ => some (.seq tag done.reverse, s)

/-- The entries of a block mapping, where a key or a value may be left out. -/
def blockEntries? (fuel : Nat) (tag : Option Tag) (done : List (Node × Node)) (s : Reading) :
    Option (Node × Reading) :=
  match fuel with
  | 0 => none
  | fuel + 1 =>
    match s.tokens with
    | .key :: ts => do
      let (k, s) ← readUnless? fuel .atKey [.key, .value, .closeBlock] (s.rest ts)
      let (v, s) ← blockValue? fuel s
      blockEntries? fuel tag ((k, v) :: done) s
    | .closeBlock :: ts => some (.map tag done.reverse, s.rest ts)
    | _ => none

def blockValue? (fuel : Nat) (s : Reading) : Option (Node × Reading) :=
  match fuel with
  | 0 => none
  | fuel + 1 =>
    match s.tokens with
    | .value :: ts => readUnless? fuel .atKey [.key, .value, .closeBlock] (s.rest ts)
    | _ => some (empty, s)

/-- The items of a flow sequence. A key in it makes a mapping of one entry. -/
def flowItems? (fuel : Nat) (tag : Option Tag) (done : List Node) (first : Bool) (s : Reading) :
    Option (Node × Reading) :=
  match fuel with
  | 0 => none
  | fuel + 1 =>
    match s.tokens with
    | .closeFlowSeq :: ts => some (.seq tag done.reverse, s.rest ts)
    | ts => do
      let ts ← if first then some ts
        else match ts with
          | .comma :: ts => some ts
          | _ => none
      match ts with
      | .closeFlowSeq :: ts => some (.seq tag done.reverse, s.rest ts)
      | .key :: ts => do
        let (k, s) ← flowKey? fuel (s.rest ts)
        let (v, s) ← flowValue? fuel [.comma, .closeFlowSeq] s
        flowItems? fuel tag (.map none [(k, v)] :: done) false s
      | ts => do
        let (n, s) ← read? fuel .inFlow (s.rest ts)
        flowItems? fuel tag (n :: done) false s

/-- The key of a mapping of one entry. Where it is left out, the token that comes instead is lost. -/
def flowKey? (fuel : Nat) (s : Reading) : Option (Node × Reading) :=
  match fuel with
  | 0 => none
  | fuel + 1 =>
    match s.tokens with
    | .value :: ts | .comma :: ts | .closeFlowSeq :: ts => some (empty, s.rest ts)
    | _ => read? fuel .inFlow s

def flowValue? (fuel : Nat) (ends : List Token) (s : Reading) : Option (Node × Reading) :=
  match fuel with
  | 0 => none
  | fuel + 1 =>
    match s.tokens with
    | .value :: ts => readUnless? fuel .inFlow ends (s.rest ts)
    | _ => some (empty, s)

/-- The entries of a flow mapping, where a node on its own is a key without a value. -/
def flowEntries? (fuel : Nat) (tag : Option Tag) (done : List (Node × Node)) (first : Bool)
    (s : Reading) : Option (Node × Reading) :=
  match fuel with
  | 0 => none
  | fuel + 1 =>
    match s.tokens with
    | .closeFlowMap :: ts => some (.map tag done.reverse, s.rest ts)
    | ts => do
      let ts ← if first then some ts
        else match ts with
          | .comma :: ts => some ts
          | _ => none
      match ts with
      | .closeFlowMap :: ts => some (.map tag done.reverse, s.rest ts)
      | .key :: ts => do
        let ends := [.comma, .closeFlowMap]
        let (k, s) ← readUnless? fuel .inFlow (.value :: ends) (s.rest ts)
        let (v, s) ← flowValue? fuel ends s
        flowEntries? fuel tag ((k, v) :: done) false s
      | ts => do
        let (k, s) ← read? fuel .inFlow (s.rest ts)
        flowEntries? fuel tag ((k, empty) :: done) false s

end

mutual

/-- The size of a document: scalars and aliases count once, collections have two ends. -/
def weight : Node → Nat
  | .scalar _ => 1
  | .alias _ => 1
  | .seq _ items => weightItems items + 2
  | .map _ entries => weightEntries entries + 2

def weightItems : List Node → Nat
  | [] => 0
  | n :: r => n.weight + weightItems r

def weightEntries : List (Node × Node) → Nat
  | [] => 0
  | (k, v) :: r => k.weight + v.weight + weightEntries r

end

end Node

/-- A document: its root, and the nodes that aliases refer to by number. -/
structure Graph where
  root : Node
  homes : List (Nat × Nat) := []
  named : List (Nat × Node) := []

namespace Graph

def node? (g : Graph) (number : Nat) : Option Node := do
  Assoc.lookup (← Assoc.lookup number g.homes) g.named

def directives? (version : Bool) (handles : List (String × String)) :
    List Token → Option (List (String × String) × List Token)
  | .version major minor :: ts =>
    if version || major ≠ 1 || (minor ≠ 1 && minor ≠ 2) then none else directives? true handles ts
  | .handle name start :: ts =>
    if handles.any fun h => h.1 = name then none
    else directives? version ((name, start) :: handles) ts
  | ts => some (handles, ts)

def commonHandles : List (String × String) := [("!", "!"), ("!!", Tag.coreStart)]

def endsDocument : Token → Bool
  | .version _ _ | .handle _ _ | .documentStart | .documentEnd => true
  | _ => false

def ofTokens? (tokens : List Token) : Option Graph := do
  let (handles, ts) ← directives? false [] tokens
  let isBare := ts.length = tokens.length && ts.head? ≠ some .documentStart
  let content ← if isBare then some ts
    else match ts with
      | .documentStart :: ts => some ts
      | _ => none
  let s : Node.Reading := { tokens := content, handles := handles ++ commonHandles }
  let isEmpty := if isBare then content.isEmpty else content.head?.all endsDocument
  let (root, s) ← if isEmpty then some (Node.empty, s)
    else Node.read? (6 * content.length + 6) .inBlock s
  if s.tokens.all (· = .documentEnd) then some ⟨root, s.homes, s.complete⟩ else none

/-- The one document of a text. A text without any holds an empty scalar. -/
def ofText? (text : String) : Option Graph := (Token.ofText? text).bind ofTokens?

end Graph

end RolloutControl.Yaml
