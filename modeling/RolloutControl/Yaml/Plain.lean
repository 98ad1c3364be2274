import RolloutControl.Number.Decimal
/-! What a plain YAML scalar stands for under the core schema: nothing, a truth value, a number, or
its own text. Digits after a leading zero are text. -/

namespace RolloutControl.Yaml

inductive Plain
  | null
  | bool (b : Bool)
  | int (n : Int)
  | decimal (d : Decimal)
  /-- An infinity, or not a number. -/
  | special
  | text
deriving DecidableEq, Repr

namespace Plain

def isNull (s : String) : Bool := ["null", "Null", "NULL", "~"].contains s

def bool? (s : String) : Option Bool :=
  if ["true", "True", "TRUE"].contains s then some true
  else if ["false", "False", "FALSE"].contains s then some false
  else none

def isSign (c : Char) : Bool := c == '+' || c == '-'

def unsigned : List Char → List Char
  | c :: r => if isSign c then r else c :: r
  | [] => []

/-- Such as 007: more than one digit, the first of them zero. -/
def hasLeadingZero (cs : List Char) : Bool :=
  match unsigned cs with
  | '0' :: r => !r.isEmpty && r.all Char.isDigit
  | _ => false

def magnitude? : List Char → Option Nat
  | '0' :: 'x' :: r => Text.number? 16 r
  | '0' :: 'o' :: r => Text.number? 8 r
  | '0' :: 'b' :: r => Text.number? 2 r
  | cs => Text.number? 10 cs

def int128Least : Int := -0x80000000000000000000000000000000

def uint128Greatest : Int := 0xffffffffffffffffffffffffffffffff

/-- Whole numbers of 128 bits, with a sign or without. -/
def int? (s : String) : Option Int :=
  let cs := s.toList
  if hasLeadingZero cs then none
  else
    (match cs with
    | '-' :: r => (magnitude? r).map fun n => -(n : Int)
    | '+' :: r => (magnitude? r).map fun n => (n : Int)
    | r => (magnitude? r).map fun n => (n : Int)).filter fun n =>
      int128Least ≤ n ∧ n ≤ uint128Greatest

def float? (cs : List Char) : Option Decimal := do
  let (negative, cs) := match cs with
    | '-' :: r => (true, r)
    | '+' :: r => (false, r)
    | r => (false, r)
  let whole := cs.takeWhile Char.isDigit
  let rest := cs.dropWhile Char.isDigit
  let (fraction, rest) := match rest with
    | '.' :: r => (r.takeWhile Char.isDigit, r.dropWhile Char.isDigit)
    | r => ([], r)
  let n ← Text.number? 10 (whole ++ fraction)
  let power ← match rest with
    | [] => some (0 : Int)
    | e :: r =>
      if e == 'e' || e == 'E' then
        match r with
        | '-' :: ds => (Text.number? 10 ds).map fun k => -(k : Int)
        | '+' :: ds => (Text.number? 10 ds).map fun k => (k : Int)
        | ds => (Text.number? 10 ds).map fun k => (k : Int)
      else none
  Decimal.rounded? negative n (power - fraction.length)

def isSpecial (s : String) : Bool :=
  [".inf", ".Inf", ".INF", "+.inf", "+.Inf", "+.INF", "-.inf", "-.Inf", "-.INF",
    ".nan", ".NaN", ".NAN"].contains s

def ofText (s : String) : Plain :=
  if s = "" || isNull s then .null
  else
    match bool? s with
    | some b => .bool b
    | none =>
      match int? s with
      | some n => .int n
      | none =>
        if hasLeadingZero s.toList then .text
        else if isSpecial s then .special
        else
          match float? s.toList with
          | some d => .decimal d
          | none => .text

end Plain

end RolloutControl.Yaml
