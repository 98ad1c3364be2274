import RolloutControl.Yaml.Token.Block
import RolloutControl.Yaml.Token.Name
import RolloutControl.Yaml.Token.Plain
import RolloutControl.Yaml.Token.Quoted
/-! Cutting a YAML text into tokens. Outside of flow collections, a token further right than the ones
before opens a block collection, and one further left closes those that it has left. A colon makes a key
of what stands before it on its line, so the token for a key is put in where that began. -/

namespace RolloutControl.Yaml

structure KeyStart where
  /-- How many tokens come before. -/
  place : Nat
  line : Nat
  offset : Nat
  column : Nat
  /-- Whether nothing but a key can stand there. -/
  required : Bool

structure Scanner where
  cursor : Cursor
  /-- The tokens so far, the last one first. -/
  tokens : List Token := []
  /-- One more than the columns of the open block collections, innermost first. -/
  margins : List Nat := []
  /-- Whether a key may begin here. -/
  keyAllowed : Bool := true
  /-- Where the present key may have begun. -/
  keyStart : Option KeyStart := none
  /-- The same for the collections around each open flow collection, innermost first. -/
  outerKeys : List (Option KeyStart) := []

namespace Scanner

/-- Keys end on their line, and after at most so many bytes. -/
def keyLimit : Nat := 1024

def inFlow (s : Scanner) : Bool := !s.outerKeys.isEmpty

def margin (s : Scanner) : Nat := s.margins.headD 0

def push (t : Token) (s : Scanner) : Scanner := { s with tokens := t :: s.tokens }

def pushChar (t : Token) (s : Scanner) : Scanner := { s.push t with cursor := s.cursor.next }

def insert (place : Nat) (t : Token) (s : Scanner) : Scanner :=
  let n := s.tokens.length - place
  { s with tokens := s.tokens.take n ++ t :: s.tokens.drop n }

/-- Closes the block collections that begin further right than the column before the margin. -/
def closeTo (margin : Nat) (s : Scanner) : Scanner :=
  if s.inFlow then s
  else
    let closed := s.margins.takeWhile fun m => margin < m
    { s with
      tokens := List.replicate closed.length .closeBlock ++ s.tokens
      margins := s.margins.drop closed.length }

/-- Opens a block collection, if the column is further right than those of the open ones. -/
def openAt (column place : Nat) (t : Token) (s : Scanner) : Scanner :=
  if s.inFlow || column < s.margin then s
  else { s.insert place t with margins := (column + 1) :: s.margins }

/-- Takes back that a key may have begun, unless it had to. -/
def dropKey? (s : Scanner) : Option Scanner :=
  if s.keyStart.any (·.required) then none else some { s with keyStart := none }

def noteKey? (s : Scanner) : Option Scanner :=
  if s.keyAllowed then do
    let s ← s.dropKey?
    some { s with keyStart := some {
      place := s.tokens.length
      line := s.cursor.line
      offset := s.cursor.offset
      column := s.cursor.column
      required := !s.inFlow && s.margin == s.cursor.column + 1 } }
  else some s

def isStale (c : Cursor) (k : KeyStart) : Bool := k.line < c.line || k.offset + keyLimit < c.offset

def dropStaleKeys? (s : Scanner) : Option Scanner :=
  let check (k : Option KeyStart) : Option (Option KeyStart) :=
    match k with
    | some k => if isStale s.cursor k then (if k.required then none else some none) else some (some k)
    | none => some none
  do some { s with keyStart := ← check s.keyStart, outerKeys := ← s.outerKeys.mapM check }

/-- To the next token, past blanks, comments and breaks. A byte order mark may begin a line. Outside
of flow collections, tabs are blanks only where no key may begin. -/
def toToken (fuel : Nat) (s : Scanner) : Scanner :=
  match fuel with
  | 0 => s
  | fuel + 1 =>
    let c := s.cursor
    let c := if c.column == 0 && c.rest.head? == some '\ufeff' then c.next else c
    let c := c.skipWhile fun d => d == ' ' || ((s.inFlow || !s.keyAllowed) && d == '\t')
    let c := c.skipComment
    match c.newline? with
    | some (_, below) =>
      toToken fuel { s with cursor := below, keyAllowed := s.keyAllowed || !s.inFlow }
    | none => { s with cursor := c }

def mark? (t : Token) (c : Cursor) (s : Scanner) : Option Scanner := do
  let s ← (s.closeTo 0).dropKey?
  some { s.push t with cursor := c, keyAllowed := false }

def keyed? (t : Token) (c : Cursor) (s : Scanner) : Option Scanner := do
  let s ← s.noteKey?
  some { s.push t with cursor := c, keyAllowed := false }

def openFlow? (t : Token) (s : Scanner) : Option Scanner := do
  let s ← s.noteKey?
  some { s.pushChar t with
    keyStart := none, outerKeys := s.keyStart :: s.outerKeys, keyAllowed := true }

def closeFlow? (t : Token) (s : Scanner) : Option Scanner := do
  let s ← s.dropKey?
  some { s.pushChar t with
    keyStart := s.outerKeys.headD none, outerKeys := s.outerKeys.tail, keyAllowed := false }

/-- The mark of an item or of a key, which opens a block collection where there is none yet. -/
def entry? (t opening : Token) (keyNext : Bool) (s : Scanner) : Option Scanner := do
  if !s.inFlow && !s.keyAllowed then none
  else
    let s ← (s.openAt s.cursor.column s.tokens.length opening).dropKey?
    some { s.pushChar t with keyAllowed := keyNext }

/-- A colon, behind a key on the same line or on its own. -/
def colon? (s : Scanner) : Option Scanner :=
  match s.keyStart with
  | some k =>
    let s := (s.insert k.place .key).openAt k.column k.place .openBlockMap
    some { s.pushChar .value with keyStart := none, keyAllowed := false }
  | none =>
    if !s.inFlow && !s.keyAllowed then none
    else
      let s := s.openAt s.cursor.column s.tokens.length .openBlockMap
      some { s.pushChar .value with keyAllowed := !s.inFlow }

def quoted? (quote : Char) (s : Scanner) : Option Scanner := do
  let (text, c) ← s.cursor.next.quoted? quote (s.cursor.rest.length + 1) []
  s.keyed? (.scalar .quoted (String.ofList text)) c

def plain? (s : Scanner) : Option Scanner := do
  let (text, isBroken, c) ←
    s.cursor.plain? s.inFlow s.margin (s.cursor.rest.length + 1) [] {}
  let s ← s.keyed? (.scalar .plain (String.ofList text)) c
  some { s with keyAllowed := isBroken }

def block? (form : Form) (s : Scanner) : Option Scanner := do
  let s ← s.dropKey?
  let (text, c) ← s.cursor.block? s.margin
  some { s.push (.scalar form (String.ofList text)) with cursor := c, keyAllowed := true }

def read? (d : Char) (r : List Char) (s : Scanner) : Option Scanner :=
  let c := s.cursor
  if c.column == 0 && d == '%' then do
    let (t, c) ← c.directive?
    s.mark? t c
  else if c.hasMark '-' then s.mark? .documentStart (c.skip 3)
  else if c.hasMark '.' then s.mark? .documentEnd (c.skip 3)
  else if d == '[' then s.openFlow? .openFlowSeq
  else if d == '\x7b' then s.openFlow? .openFlowMap
  else if d == ']' then s.closeFlow? .closeFlowSeq
  else if d == '\x7d' then s.closeFlow? .closeFlowMap
  else if d == ',' then do
    let s ← s.dropKey?
    some { s.pushChar .comma with keyAllowed := true }
  else if d == '-' && endsWord r then s.entry? .dash .openBlockSeq true
  else if d == '?' && (s.inFlow || endsWord r) then s.entry? .key .openBlockMap !s.inFlow
  else if d == ':' && (s.inFlow || endsWord r) then s.colon?
  else if d == '*' then do
    let (name, c) ← c.name?
    s.keyed? (.alias name) c
  else if d == '&' then do
    let (name, c) ← c.name?
    s.keyed? (.anchor name) c
  else if d == '!' then do
    let (t, c) ← c.tag? s.inFlow
    s.keyed? t c
  else if d == '|' && !s.inFlow then s.block? .literal
  else if d == '>' && !s.inFlow then s.block? .quoted
  else if d == '\'' || d == '"' then s.quoted? d
  else if startsPlain s.inFlow c.rest then s.plain?
  else none

def finish? (fuel : Nat) (s : Scanner) : Option (List Token) :=
  match fuel with
  | 0 => none
  | fuel + 1 => do
    let s := s.toToken (s.cursor.rest.length + 1)
    let s ← s.dropStaleKeys?
    let s := s.closeTo (s.cursor.column + 1)
    match s.cursor.rest with
    | [] => do
      let s ← (s.closeTo 0).dropKey?
      some s.tokens.reverse
    | d :: r => do finish? fuel (← s.read? d r)

end Scanner

def Token.ofText? (text : String) : Option (List Token) :=
  let cs := text.toList
  if cs.all isAllowed then Scanner.finish? (cs.length + 1) { cursor := { rest := cs } } else none

end RolloutControl.Yaml
