import RolloutControl.Dict
import RolloutControl.Json.Printer
import RolloutControl.Text.Quoted
import RolloutControl.Yaml.Scalar
/-! Decoded text before its fields have types, and the readers that give them types. JSON marks the
kind of every value; a plain scalar of YAML has the kind that its reader asks for. Aliases are followed as
readers come to them, and only so often. -/

namespace RolloutControl

inductive Tree
  | null
  | bool (b : Bool)
  | int (n : Int)
  | decimal (d : Decimal)
  | str (s : String)
  | scalar (s : Yaml.Scalar)
  /-- A list. Where `asRecord` holds it may also give the fields of a record in their order. -/
  | seq (asRecord : Bool) (items : List Tree)
  | map (entries : List (Tree × Tree))
  /-- A list or a map with a tag of its document's own. -/
  | own (t : Tree)
  /-- A value that is written somewhere else. -/
  | alias (target : Unit → Tree)
  /-- A list or a map inside of too many others. -/
  | tooDeep
deriving Inhabited

inductive DecodeError
  | malformed
  | wrongType (found expected : String)
  | outOfRange (found expected : String)
  | missing (field : String)
  | duplicate (field : String)
  | unknownVariant (found : String) (allowed : List String)
  | wrongLength (found : Nat) (expected : String)
  | described (text : String)
  | tooDeep
  | tooManyAliases
deriving DecidableEq, Repr

/-- Reading values, with the number of aliases that may still be followed. -/
abbrev Decoding := StateT Nat (Except DecodeError)

namespace DecodeError

def backticked (s : String) : String := "`" ++ s ++ "`"

def message : DecodeError → String
  | .malformed => "malformed text"
  | .wrongType found expected => "invalid type: " ++ found ++ ", expected " ++ expected
  | .outOfRange found expected => "invalid value: " ++ found ++ ", expected " ++ expected
  | .missing field => "missing field " ++ backticked field
  | .duplicate field => "duplicate field " ++ backticked field
  | .unknownVariant found allowed =>
    "unknown variant " ++ backticked found ++ ", expected " ++
      (match allowed with
       | [a] => backticked a
       | [a, b] => backticked a ++ " or " ++ backticked b
       | l => "one of " ++ String.intercalate ", " (l.map backticked))
  | .wrongLength found expected =>
    "invalid length " ++ Text.natural found ++ ", expected " ++ expected
  | .described text => text
  | .tooDeep => "recursion limit exceeded"
  | .tooManyAliases => "repetition limit exceeded"

end DecodeError

namespace Tree

mutual

def ofJson : Json → Tree
  | .null => .null
  | .bool b => .bool b
  | .int n => .int n
  | .decimal d => .decimal d
  | .str s => .str s
  | .arr items => .seq true (ofItems items)
  | .obj fields => .map (ofFields fields)

def ofItems : List Json → List Tree
  | [] => []
  | x :: r => ofJson x :: ofItems r

def ofFields : List (String × Json) → List (Tree × Tree)
  | [] => []
  | (k, x) :: r => (.str k, ofJson x) :: ofFields r

end

def describe : Tree → String
  | .null => "null"
  | .bool b => "boolean `" ++ (if b then "true" else "false") ++ "`"
  | .int n => "integer `" ++ Text.integer n ++ "`"
  | .decimal d => "floating point `" ++ d.text ++ "`"
  | .str s => "string " ++ Text.quoted s
  | .scalar s => "string " ++ Text.quoted s.text
  | .seq _ _ => "sequence"
  | .map _ => "map"
  | .own t => describe t
  | .alias _ => "alias"
  | .tooDeep => "nested value"

variable {α : Type}

def wrongType (t : Tree) (expected : String) : Decoding α :=
  throw (.wrongType t.describe expected)

def follow : Decoding Unit := do
  match ← get with
  | 0 => throw .tooManyAliases
  | n + 1 => set n

def itself : Tree → Decoding Tree
  | .alias target => do
    follow
    match target () with
    | .own t => pure t
    | t => pure t
  | .own t => pure t
  | t => pure t

def string (t : Tree) : Decoding String := do
  match ← t.itself with
  | .str s => pure s
  | .scalar s => pure s.text
  | t => t.wrongType "a string"

def boolean (t : Tree) : Decoding Bool := do
  match ← t.itself with
  | .bool b => pure b
  | .scalar s =>
    match if s.isReadAs .bool then Yaml.Plain.bool? s.text else none with
    | some b => pure b
    | none => wrongType (.scalar s) "a boolean"
  | t => t.wrongType "a boolean"

/-- A whole number type: its name and its range. -/
structure IntegerType where
  name : String
  least : Int
  greatest : Int

def i32 : IntegerType := ⟨"i32", -0x80000000, 0x7fffffff⟩

def i64 : IntegerType := ⟨"i64", -0x8000000000000000, 0x7fffffffffffffff⟩

def u16 : IntegerType := ⟨"u16", 0, 0xffff⟩

def u64 : IntegerType := ⟨"u64", 0, 0xffffffffffffffff⟩

def IntegerType.check (type : IntegerType) (n : Int) : Decoding Int :=
  if type.least ≤ n ∧ n ≤ type.greatest then pure n
  else throw (.outOfRange (describe (.int n)) type.name)

def integer (type : IntegerType) (t : Tree) : Decoding Int := do
  match ← t.itself with
  | .int n => type.check n
  | .scalar s =>
    match if s.isReadAs .int then Yaml.Plain.int? s.text else none with
    | some n =>
      if type.least = 0 && s.text.startsWith "-" then wrongType (.scalar s) type.name
      else type.check n
    | none => wrongType (.scalar s) type.name
  | t => t.wrongType type.name

def optional (f : Tree → Decoding α) (t : Tree) : Decoding (Option α) := do
  match ← t.itself with
  | .null => pure none
  | .scalar s =>
    match s.isMissing? with
    | some true => pure none
    | some false => some <$> f (.scalar s)
    | none => wrongType (.scalar s) "null"
  | t => some <$> f t

/-- Whether an empty list, map or record is written as nothing. -/
def isVoid : Tree → Bool
  | .scalar s => s.isVoid
  | _ => false

def list (f : Tree → Decoding α) (t : Tree) : Decoding (List α) := do
  match ← t.itself with
  | .seq _ items => items.mapM f
  | t => if t.isVoid then pure [] else t.wrongType "a sequence"

def entries (es : List (Tree × Tree)) : Decoding (List (String × Tree)) :=
  es.mapM fun e => do pure (← e.1.string, e.2)

def dict (f : Tree → Decoding α) (t : Tree) : Decoding (Dict String α) := do
  match ← t.itself with
  | .map es => do
    pure (Dict.ofList (← es.mapM fun e => do pure (← e.1.string, ← f e.2)))
  | t => if t.isVoid then pure ∅ else t.wrongType "a map"

/-- One of a list of names, also written as an object that gives the name nothing, or as a tag of
nothing. -/
def variant (allowed : List (String × α)) (t : Tree) : Decoding α := do
  let pick (s : String) : Decoding α :=
    match Assoc.lookup s allowed with
    | some a => pure a
    | none => throw (.unknownVariant s (allowed.map (·.1)))
  match ← t.itself with
  | .str s => pick s
  | .scalar s =>
    match s.tag with
    | some (.own name) =>
      if s.saysNull then pick name else wrongType (.scalar s) "null"
    | _ => pick s.text
  | .map [(.str s, .null)] => pick s
  | t => t.wrongType "string or map"

/-- The fields of a record that are present, by name. Other fields are ignored, and no field may
be given twice. -/
def record (name : String) (fields : List String) (t : Tree) : Decoding (List (String × Tree)) := do
  match ← t.itself with
  | .map es =>
    let known := (← entries es).filter fun e => fields.contains e.1
    match known.find? fun e => 1 < known.countP fun d => d.1 == e.1 with
    | some e => throw (.duplicate e.1)
    | none => pure known
  | .seq true items =>
    if items.length ≤ fields.length then pure (fields.zip items)
    else throw (.wrongLength items.length ("struct " ++ name ++ " with " ++
      Text.natural fields.length ++ " elements"))
  | t => if t.isVoid then pure [] else t.wrongType ("struct " ++ name)

def required (es : List (String × Tree)) (name : String) (f : Tree → Decoding α) : Decoding α :=
  match Assoc.lookup name es with
  | some t => f t
  | none => throw (.missing name)

def withDefault (es : List (String × Tree)) (name : String) (default : α) (f : Tree → Decoding α) :
    Decoding α :=
  match Assoc.lookup name es with
  | some t => f t
  | none => pure default

/-- A field that may be missing and may be null. -/
def field (es : List (String × Tree)) (name : String) (f : Tree → Decoding α) :
    Decoding (Option α) :=
  withDefault es name none (optional f)

/-- A scalar where any value may stand. No number stands for an infinity. -/
def freeScalar (s : Yaml.Scalar) : Decoding Json :=
  match s.value? with
  | some .null | some .special => pure .null
  | some (.bool b) => pure (.bool b)
  | some (.int n) =>
    if i64.least ≤ n ∧ n ≤ u64.greatest then pure (.int n)
    else wrongType (.int n) "any valid JSON value"
  | some (.decimal d) => pure (.decimal d)
  | some .text => pure (.str s.text)
  | none => wrongType (.scalar s) "any valid JSON value"

mutual

/-- Any value. Of two entries with one key the later wins. -/
def json : Tree → Decoding Json
  | .null => pure .null
  | .bool b => pure (.bool b)
  | .int n => pure (.int n)
  | .decimal d => pure (.decimal d)
  | .str s => pure (.str s)
  | .scalar s => freeScalar s
  | .seq _ items => do pure (.arr (← jsonItems items))
  | .map entries => do pure (Json.object (← jsonFields entries))
  | .own t => t.wrongType "any valid JSON value"
  | .alias target => do
    follow
    json (target ())
  | .tooDeep => throw .tooDeep

def jsonItems : List Tree → Decoding (List Json)
  | [] => pure []
  | t :: r => do pure ((← json t) :: (← jsonItems r))

def jsonFields : List (Tree × Tree) → Decoding (List (String × Json))
  | [] => pure []
  | (k, t) :: r => do pure ((← k.string, ← json t) :: (← jsonFields r))

end

def decode (f : Tree → Decoding α) (t : Tree) : Except DecodeError α := (f t).run' 0

end Tree

def Json.decode {α : Type} (f : Tree → Decoding α) (j : Json) : Except DecodeError α :=
  (Tree.ofJson j).decode f

end RolloutControl
