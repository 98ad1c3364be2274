import RolloutControl.Yaml.Cursor
/-! Plain scalars: words with gaps between them, up to something that means more than itself. -/

namespace RolloutControl.Yaml

def startsPlain (inFlow : Bool) : List Char → Bool
  | [] => false
  | c :: r =>
    if isBlank c || isBreak c then false
    else if c == '-' then !(r.head?.any isBlank)
    else if c == '?' || c == ':' then !inFlow && !endsWord r
    else !isIndicator c

def endsPlain (inFlow : Bool) (c : Char) (r : List Char) : Bool :=
  (c == ':' && endsWord r) || (inFlow && isFlowIndicator c)

/-- A colon that neither ends a word nor belongs to one. -/
def isStrayColon (inFlow : Bool) (c : Char) (r : List Char) : Bool :=
  inFlow && c == ':' && r.head?.any fun d => isFlowIndicator d || d == '?'

namespace Cursor

/-- The text of a plain scalar, whether breaks follow it, and the place behind them. Outside of flow
collections its lines do not begin before the column `margin`. -/
def plain? (inFlow : Bool) (margin : Nat) (fuel : Nat) (done : List Char) (gap : Gap) (c : Cursor) :
    Option (List Char × Bool × Cursor) :=
  match fuel with
  | 0 => none
  | fuel + 1 =>
    match c.rest with
    | [] => some (done.reverse, gap.broken, c)
    | d :: r =>
      if isBlank d || isBreak d then do
        let (gap, c) ← c.gap? margin {}
        if (!inFlow && c.column < margin) || c.atMark || c.rest.head? == some '#' then
          some (done.reverse, gap.broken, c)
        else plain? inFlow margin fuel done gap c
      else if isStrayColon inFlow d r then none
      else if endsPlain inFlow d r then some (done.reverse, gap.broken, c)
      else plain? inFlow margin fuel (d :: (gap.text.reverse ++ done)) {} c.next

end Cursor

end RolloutControl.Yaml
