import RolloutControl.Yaml.Character
/-! A place in a YAML text, with its line and column, since columns decide where a block collection
ends and a key has to end on its line. -/

namespace RolloutControl.Yaml

structure Cursor where
  rest : List Char
  /-- How many bytes stand before this place. -/
  offset : Nat := 0
  line : Nat := 0
  column : Nat := 0

def byteLength (cs : List Char) : Nat := cs.foldr (fun c n => c.utf8Size + n) 0

/-- The break that a text begins with, as scalars keep it, its length in bytes, and what follows it. Breaks of
every kind count as one line feed, except for the two separators of Unicode. -/
def break? : List Char → Option (Char × Nat × List Char)
  | '\r' :: '\n' :: r => some ('\n', 2, r)
  | c :: r =>
    if c == '\u2028' || c == '\u2029' then some (c, c.utf8Size, r)
    else if isBreak c then some ('\n', c.utf8Size, r)
    else none
  | [] => none

namespace Cursor

def skip (n : Nat) (c : Cursor) : Cursor :=
  { c with
    rest := c.rest.drop n
    offset := c.offset + byteLength (c.rest.take n)
    column := c.column + n }

def next (c : Cursor) : Cursor := c.skip 1

def skipWhile (p : Char → Bool) (c : Cursor) : Cursor := c.skip (c.rest.takeWhile p).length

def newline? (c : Cursor) : Option (Char × Cursor) :=
  (break? c.rest).map fun (b, n, r) =>
    (b, { rest := r, offset := c.offset + n, line := c.line + 1, column := 0 })

def skipBreak (c : Cursor) : Cursor :=
  match c.newline? with
  | some (_, d) => d
  | none => c

def skipComment (c : Cursor) : Cursor :=
  if c.rest.head? == some '#' then c.skipWhile fun d => !isBreak d else c

def endLine? (c : Cursor) : Option Cursor :=
  let c := (c.skipWhile isBlank).skipComment
  if endsLine c.rest then some c.skipBreak else none

/-- Whether the mark of three equal characters stands alone at the beginning of the line. -/
def hasMark (m : Char) (c : Cursor) : Bool :=
  c.column == 0 && c.rest.take 3 == [m, m, m] && endsWord (c.rest.drop 3)

def atMark (c : Cursor) : Bool := c.hasMark '-' || c.hasMark '.'

end Cursor

/-- What stands between two words of a scalar: blanks, or breaks with blanks around them. -/
structure Gap where
  /-- The blanks on one line, the last one first. -/
  blanks : List Char := []
  broken : Bool := false
  /-- The first break, unless it was escaped. -/
  first : Option Char := none
  /-- The other breaks, the last one first. -/
  more : List Char := []

namespace Gap

/-- What a gap stands for: itself on one line, a blank for a single line feed, or else its breaks,
less the first one if that is a line feed. -/
def text (g : Gap) : List Char :=
  if !g.broken then g.blanks.reverse
  else
    match g.first with
    | some '\n' => if g.more.isEmpty then [' '] else g.more.reverse
    | some b => b :: g.more.reverse
    | none => g.more.reverse

def addBlank (c : Char) (g : Gap) : Gap := if g.broken then g else { g with blanks := c :: g.blanks }

def addBreak (b : Char) (g : Gap) : Gap :=
  if g.broken then { g with more := b :: g.more } else { broken := true, first := some b }

/-- The gap at this place. On a new line, no tab may stand before the column `margin`. -/
def read? (fuel margin : Nat) (g : Gap) (c : Cursor) : Option (Gap × Cursor) :=
  match fuel with
  | 0 => none
  | fuel + 1 =>
    match c.rest with
    | [] => some (g, c)
    | d :: _ =>
      if isBlank d then
        if g.broken && c.column < margin && d == '\t' then none
        else read? fuel margin (g.addBlank d) c.next
      else
        match c.newline? with
        | some (b, below) => read? fuel margin (g.addBreak b) below
        | none => some (g, c)

end Gap

namespace Cursor

def gap? (c : Cursor) (margin : Nat) (begun : Gap) : Option (Gap × Cursor) :=
  Gap.read? (c.rest.length + 1) margin begun c

end Cursor

end RolloutControl.Yaml
