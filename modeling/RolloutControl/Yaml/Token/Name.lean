import RolloutControl.Text.Number
import RolloutControl.Yaml.Cursor
import RolloutControl.Yaml.Token.Basic
/-! The tokens that name something: anchors, aliases, tags and directives. -/

namespace RolloutControl.Yaml

def octetWidth? (n : Nat) : Option Nat :=
  if n < 0x80 then some 1
  else if n < 0xC0 then none
  else if n < 0xE0 then some 2
  else if n < 0xF0 then some 3
  else if n < 0xF8 then some 4
  else none

def escapedOctet? : List Char → Option (Nat × List Char)
  | '%' :: a :: b :: r => (Text.number? 16 [a, b]).map fun n => (n, r)
  | _ => none

def moreOctets? : Nat → List Char → Option (List UInt8 × List Char)
  | 0, cs => some ([], cs)
  | n + 1, cs => do
    let (m, r) ← escapedOctet? cs
    if m < 0x80 || 0xC0 ≤ m then none
    else
      let (ms, r) ← moreOctets? n r
      some (UInt8.ofNat m :: ms, r)

def tagOctets? (fuel : Nat) (cs : List Char) : Option (List UInt8) :=
  match fuel, cs with
  | _, [] => some []
  | 0, _ => none
  | fuel + 1, '%' :: r => do
    let (n, r') ← escapedOctet? ('%' :: r)
    let (ms, r') ← moreOctets? ((← octetWidth? n) - 1) r'
    some (UInt8.ofNat n :: ms ++ (← tagOctets? fuel r'))
  | fuel + 1, c :: r => do some ((String.singleton c).toUTF8.toList ++ (← tagOctets? fuel r))

/-- A tag with its escapes resolved, up to an octet of zero. Octets that make no text are kept apart from
all texts by a character zero. -/
def tagText? (cs : List Char) : Option String := do
  let octets := (← tagOctets? cs.length cs).takeWhile (· ≠ 0)
  some ((String.fromUTF8? ⟨octets.toArray⟩).getD "\x00")

namespace Cursor

def name? (c : Cursor) : Option (String × Cursor) :=
  let c := c.next
  let name := c.rest.takeWhile isNameChar
  let d := c.skip name.length
  if !name.isEmpty && (endsWord d.rest || d.rest.head?.any fun e => "?:,]\x7d%@\x60".toList.contains e)
  then some (String.ofList name, d)
  else none

/-- A handle: an exclamation mark, or a name between two of them. The last result tells whether the
second mark is there. -/
def handle? (c : Cursor) : Option (List Char × Bool × Cursor) :=
  match c.rest with
  | '!' :: r =>
    let name := r.takeWhile isNameChar
    let c := c.skip (name.length + 1)
    if c.rest.head? == some '!' then some ('!' :: name ++ ['!'], true, c.next)
    else some ('!' :: name, false, c)
  | _ => none

/-- The characters of a tag at this place; between angles it may have more. -/
def tagChars (enclosed : Bool) (c : Cursor) : List Char × Cursor :=
  let cs := c.rest.takeWhile fun d => isTagChar d || (enclosed && (d == ',' || d == '[' || d == ']'))
  (cs, c.skip cs.length)

def tag? (inFlow : Bool) (c : Cursor) : Option (Token × Cursor) := do
  let (handle, rest, c) ←
    match c.rest with
    | '!' :: '<' :: _ => do
      let (cs, d) := (c.skip 2).tagChars true
      let text ← tagText? cs
      if cs.isEmpty || d.rest.head? != some '>' then none else some ("", text, d.next)
    | _ => do
      let (handle, isClosed, d) ← c.handle?
      let (cs, d) := d.tagChars false
      let text ← tagText? cs
      if isClosed then
        if cs.isEmpty then none else some (String.ofList handle, text, d)
      else
        let rest := String.ofList handle.tail ++ text
        if rest.isEmpty then some ("", "!", d) else some ("!", rest, d)
  if endsWord c.rest || (inFlow && c.rest.head? == some ',') then some (.tag handle rest, c) else none

def number? (c : Cursor) : Option (Nat × Cursor) := do
  let ds := c.rest.takeWhile Char.isDigit
  if ds.length ≤ 9 then some (← Text.number? 10 ds, c.skip ds.length) else none

def directive? (c : Cursor) : Option (Token × Cursor) := do
  let c := c.next
  let name := c.rest.takeWhile isNameChar
  let c := c.skip name.length
  if !endsWord c.rest then none
  else
    let c := c.skipWhile isBlank
    let (t, c) ←
      if name == "YAML".toList then do
        let (major, c) ← c.number?
        if c.rest.head? == some '.' then
          let (minor, c) ← c.next.number?
          some (Token.version major minor, c)
        else none
      else if name == "TAG".toList then do
        let (handle, isClosed, c) ← c.handle?
        if (!isClosed && handle != ['!']) || !c.rest.head?.any isBlank then none
        else
          let (cs, c) := (c.skipWhile isBlank).tagChars true
          let text ← tagText? cs
          if cs.isEmpty || !endsWord c.rest then none
          else some (Token.handle (String.ofList handle) text, c)
      else none
    some (t, ← c.endLine?)

end Cursor

end RolloutControl.Yaml
