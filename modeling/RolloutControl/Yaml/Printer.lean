import RolloutControl.Json.Basic
import RolloutControl.Yaml.Style
/-! Documents in the block style of YAML. Mappings are indented by two columns, sequences under a key
are not, empty collections are in brackets, and no line is folded. -/

namespace RolloutControl.Yaml.Block

def spaces (n : Nat) : List Char := List.replicate n ' '

def escapedChar (c : Char) : List Char :=
  let code (mark : Char) (width : Nat) :=
    mark :: (Text.hexadecimal width c.toNat).toList.map Char.toUpper
  '\\' ::
    match c with
    | '\x00' => ['0']
    | '\x07' => ['a']
    | '\x08' => ['b']
    | '\t' => ['t']
    | '\n' => ['n']
    | '\x0b' => ['v']
    | '\x0c' => ['f']
    | '\r' => ['r']
    | '\x1b' => ['e']
    | '"' => ['"']
    | '\\' => ['\\']
    | '\x85' => ['N']
    | '\u2028' => ['L']
    | '\u2029' => ['P']
    | c => if c.toNat ≤ 0xFF then code 'x' 2 else if c.toNat ≤ 0xFFFF then code 'u' 4 else code 'U' 8

def doubleQuoted (cs : List Char) : List Char :=
  let one (c : Char) : List Char :=
    if !Style.isPrintable c || isBreak c || c == '"' || c == '\\' then escapedChar c else [c]
  '"' :: cs.flatMap one ++ ['"']

/-- The lines of a text behind one another; `fresh` holds at the beginning of a line, which is
indented unless it is empty. -/
def indentLines (indent : Nat) : (fresh : Bool) → List Char → List Char
  | _, [] => []
  | fresh, c :: r =>
    if isBreak c then c :: indentLines indent true r
    else (if fresh then spaces indent else []) ++ c :: indentLines indent false r

def endsLine (cs : List Char) : Bool := cs.getLast?.any isBreak

def singleQuoted (indent : Nat) (cs : List Char) : List Char :=
  let doubled := cs.flatMap fun c => if c == '\'' then ['\'', '\''] else [c]
  '\'' :: indentLines indent false doubled ++ (if endsLine cs then spaces indent else []) ++ ['\'']

/-- The mark of a literal block says how far the block is indented, where its first line does not
show it, and what becomes of the breaks at its end. -/
def literalMark (cs : List Char) : List Char :=
  let hint := if cs.head?.any fun c => c == ' ' || isBreak c then ['2'] else []
  let chomp := match cs.reverse with
    | [] => ['-']
    | [c] => if isBreak c then ['+'] else ['-']
    | c :: d :: _ => if isBreak c then (if isBreak d then ['+'] else []) else ['-']
  '|' :: hint ++ chomp

def literalBlock (indent : Nat) (cs : List Char) : List Char :=
  literalMark cs ++ '\n' :: indentLines indent true cs ++ (if endsLine cs then [] else ['\n'])

def textLines (indent : Nat) (s : String) : List Char :=
  match Style.ofText s with
  | .plain => s.toList ++ ['\n']
  | .single => singleQuoted indent s.toList ++ ['\n']
  | .double => doubleQuoted s.toList ++ ['\n']
  | .literal => literalBlock indent s.toList

/-- Keys of one line and of moderate length stand before their colon. -/
def isSimpleKey (k : String) : Bool := !Style.hasLines k.toList && k.utf8ByteSize ≤ 128

/-- What stands between a simple key and its value, and how far the value is indented. -/
def afterKey (indent : Nat) : Json → List Char × Nat
  | .arr (_ :: _) => (':' :: '\n' :: spaces indent, indent)
  | .obj (_ :: _) => (':' :: '\n' :: spaces (indent + 2), indent + 2)
  | _ => ([':', ' '], indent + 2)

def keyText (indent : Nat) (k : String) (j : Json) : List Char × Nat :=
  if isSimpleKey k then
    let (after, inner) := afterKey indent j
    ((textLines (indent + 2) k).dropLast ++ after, inner)
  else ('?' :: ' ' :: textLines (indent + 2) k ++ spaces indent ++ [':', ' '], indent + 2)

mutual

/-- A value, to the end of its last line. Its first line is indented already. -/
def block (indent : Nat) : Json → List Char
  | .null => "null\n".toList
  | .bool true => "true\n".toList
  | .bool false => "false\n".toList
  | .int n => (Text.integer n).toList ++ ['\n']
  | .decimal d => (d.textWith "").toList ++ ['\n']
  | .str s => textLines indent s
  | .arr items =>
    if items.isEmpty then "[]\n".toList else (spaces indent).intercalate (blockItems indent items)
  | .obj fields =>
    if fields.isEmpty then "\x7b\x7d\n".toList
    else (spaces indent).intercalate (blockFields indent fields)

def blockItems (indent : Nat) : List Json → List (List Char)
  | [] => []
  | x :: r => ('-' :: ' ' :: block (indent + 2) x) :: blockItems indent r

def blockFields (indent : Nat) : List (String × Json) → List (List Char)
  | [] => []
  | (k, x) :: r =>
    let (lead, inner) := keyText indent k x
    (lead ++ block inner x) :: blockFields indent r

end

end RolloutControl.Yaml.Block

namespace RolloutControl.Json

def toYaml (j : Json) : String := String.ofList (Yaml.Block.block 0 j)

end RolloutControl.Json
