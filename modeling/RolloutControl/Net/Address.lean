import RolloutControl.Text.Blank
import RolloutControl.Text.Number
/-! IP addresses and their spelling: four decimal numbers with points between them, or eight
hexadecimal groups with colons, where one run of zeros may be left out. -/

namespace RolloutControl.Net

inductive Address
  | v4 (a b c d : UInt8)
  | v6 (groups : Vector UInt16 8)
deriving DecidableEq, Repr

namespace Address

/-- A decimal number below 256 without leading zeros. -/
def octet? (cs : List Char) : Option UInt8 := do
  if 3 < cs.length || (1 < cs.length && cs.head? == some '0') then none
  else
    let n ← Text.number? 10 cs
    if n < 256 then some (UInt8.ofNat n) else none

def octets? (cs : List Char) : Option (UInt8 × UInt8 × UInt8 × UInt8) :=
  match (Text.splitList (· == '.') cs).mapM octet? with
  | some [a, b, c, d] => some (a, b, c, d)
  | _ => none

def group? (cs : List Char) : Option UInt16 :=
  if 4 < cs.length then none else (Text.number? 16 cs).map UInt16.ofNat

def pairOf (a b : UInt8) : UInt16 := UInt16.ofNat (a.toNat * 256 + b.toNat)

/-- Groups with colons between them. The last two may be written as four decimal numbers. -/
def groupsOfParts? (dotted : Bool) : List (List Char) → Option (List UInt16)
  | [] => some []
  | [p] =>
    match group? p with
    | some g => some [g]
    | none =>
      if dotted then (octets? p).map fun (a, b, c, d) => [pairOf a b, pairOf c d] else none
  | p :: r => do some ((← group? p) :: (← groupsOfParts? dotted r))

def groups? (dotted : Bool) (cs : List Char) : Option (List UInt16) :=
  if cs.isEmpty then some [] else groupsOfParts? dotted (Text.splitList (· == ':') cs)

def splitGap? : List Char → Option (List Char × List Char)
  | [] => none
  | ':' :: ':' :: r => some ([], r)
  | c :: r => (splitGap? r).map fun (a, b) => (c :: a, b)

def ofGroups? (l : List UInt16) : Option Address :=
  if h : l.length = 8 then some (.v6 ⟨l.toArray, by simp [h]⟩) else none

def v6? (cs : List Char) : Option Address :=
  match splitGap? cs with
  | none => do ofGroups? (← groups? true cs)
  | some (before, after) => do
    let front ← groups? false before
    let back ← groups? true after
    if front.length + back.length ≤ 7 then
      ofGroups? (front ++ List.replicate (8 - front.length - back.length) 0 ++ back)
    else none

def parse? (s : String) : Option Address :=
  match octets? s.toList with
  | some (a, b, c, d) => some (.v4 a b c d)
  | none => v6? s.toList

def dotted (a b c d : UInt8) : String :=
  String.intercalate "." ([a, b, c, d].map fun n => Text.natural n.toNat)

def zerosAhead (l : List UInt16) : Nat := (l.takeWhile (· = 0)).length

/-- The place and the length of the first of the longest runs of zeros. -/
def longestGap : List UInt16 → Nat × Nat
  | [] => (0, 0)
  | g :: r =>
    let (start, length) := longestGap r
    let here := zerosAhead (g :: r)
    if length ≤ here then (0, here) else (start + 1, length)

def colons (l : List UInt16) : String :=
  String.intercalate ":" (l.map fun g => Text.hexadecimal 1 g.toNat)

def v6Text (l : List UInt16) : String :=
  match l with
  | [0, 0, 0, 0, 0, 0xffff, x, y] =>
    let high (g : UInt16) := UInt8.ofNat (g.toNat / 256)
    let low (g : UInt16) := UInt8.ofNat (g.toNat % 256)
    "::ffff:" ++ dotted (high x) (low x) (high y) (low y)
  | l =>
    let (start, length) := longestGap l
    if 1 < length then colons (l.take start) ++ "::" ++ colons (l.drop (start + length)) else colons l

def text : Address → String
  | .v4 a b c d => dotted a b c d
  | .v6 groups => v6Text groups.toList

/-- Addresses that are set aside for documents, and stand for members that are not there yet. -/
def isPlaceholder : Address → Bool
  | .v4 192 0 2 _ => true
  | _ => false

end Address

end RolloutControl.Net
