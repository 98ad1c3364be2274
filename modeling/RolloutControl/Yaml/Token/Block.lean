import RolloutControl.Yaml.Cursor
/-! Block scalars: the lines below a bar or an angle that are indented deeper than what the scalar
belongs to. Behind an angle, lines are joined by blanks. -/

namespace RolloutControl.Yaml

inductive Chomping
  | strip | clip | keep
deriving DecidableEq

def Chomping.ofMark (c : Char) : Chomping := if c == '+' then .keep else .strip

/-- The marks behind the bar or angle: chomping, and how far the lines are indented. -/
def blockMarks? (cs : List Char) : Option (Chomping × Option Nat × Nat) :=
  let isChomp (c : Char) := c == '+' || c == '-'
  let value (c : Char) := c.toNat - '0'.toNat
  match cs with
  | [] => some (.clip, none, 0)
  | c :: r =>
    if isChomp c then
      match r with
      | d :: _ =>
        if d == '0' then none
        else if d.isDigit then some (.ofMark c, some (value d), 2)
        else some (.ofMark c, none, 1)
      | [] => some (.ofMark c, none, 1)
    else if c == '0' then none
    else if c.isDigit then
      match r with
      | d :: _ =>
        if isChomp d then some (.ofMark d, some (value c), 2) else some (.clip, some (value c), 1)
      | [] => some (.clip, some (value c), 1)
    else some (.clip, none, 0)

namespace Cursor

/-- Breaks and the indentation of the next line with something on it, past which no tab may be used.
Also gives the column that was furthest right. As long as the indentation is not known, all spaces
belong to it. -/
def blockGap? (indent : Option Nat) (fuel : Nat) (breaks : List Char) (furthest : Nat) (c : Cursor) :
    Option (List Char × Nat × Cursor) :=
  match fuel with
  | 0 => none
  | fuel + 1 =>
    let isMargin (column : Nat) := indent.all fun n => column < n
    let spaces := (c.rest.takeWhile (· == ' ')).length
    let c := c.skip (indent.elim spaces fun n => min spaces (n - c.column))
    let furthest := max furthest c.column
    if isMargin c.column && c.rest.head? == some '\t' then none
    else
      match c.newline? with
      | some (b, below) => blockGap? indent fuel (b :: breaks) furthest below
      | none => some (breaks, furthest, c)

/-- The lines of a block scalar from the present one on. `pending` is the break of the line before, and
`breaks` are those of the empty lines after it, the last one first. Gives the text, the last one first,
and the breaks that end it. -/
def blockLines? (isFolded : Bool) (indent : Nat) (fuel : Nat) (done : List Char)
    (pending : Option Char) (breaks : List Char) (blankBefore : Bool) (c : Cursor) :
    Option (List Char × Option Char × List Char × Cursor) :=
  match fuel with
  | 0 => none
  | fuel + 1 =>
    if c.column == indent && !c.rest.isEmpty then
      let blankHere := c.rest.head?.any isBlank
      let joint : List Char :=
        if isFolded && pending == some '\n' && !blankBefore && !blankHere then
          (if breaks.isEmpty then [' '] else [])
        else pending.toList
      let line := c.rest.takeWhile fun d => !isBreak d
      let done := line.reverse ++ (breaks ++ (joint ++ done))
      let c := c.skip line.length
      let (pending, c) := match c.newline? with
        | some (b, below) => (some b, below)
        | none => (none, c)
      do
        let (breaks, _, c) ← c.blockGap? (some indent) (c.rest.length + 1) [] 0
        blockLines? isFolded indent fuel done pending breaks blankHere c
    else some (done, pending, breaks, c)

/-- The text of a block scalar whose bar or angle stands at this place, and the place behind it. The
lines belong to something that is indented to one column less than `margin`. -/
def block? (margin : Nat) (c : Cursor) : Option (List Char × Cursor) := do
  let isFolded := c.rest.head? == some '>'
  let c := c.next
  let (chomping, fixed, n) ← blockMarks? c.rest
  let c ← (c.skip n).endLine?
  let least := max margin 1
  let given := fixed.map fun n => least - 1 + n
  let (breaks, furthest, c) ← c.blockGap? given (c.rest.length + 1) [] 0
  let indent := given.getD (max furthest least)
  let (done, pending, breaks, c) ←
    c.blockLines? isFolded indent (c.rest.length + 1) [] none breaks false
  let kept := match chomping with
    | .strip => []
    | .clip => pending.toList
    | .keep => breaks ++ pending.toList
  some ((kept ++ done).reverse, c)

end Cursor

end RolloutControl.Yaml
