import RolloutControl.Json.Basic
/-! Reading the numbers of JSON text. Digits are collected into a whole number as long as it has 64 bits,
and the rest of them only counts by its length. The result is then scaled in double precision. -/

namespace RolloutControl.Json

/-- The greatest whole number that digits are collected into. -/
def greatestWhole : Nat := 0xffffffffffffffff

def digitValue (c : Char) : Nat := c.toNat - '0'.toNat

/-- Appends digits to a number as long as it is small enough, and gives the digits that are left. -/
def collect (n : Nat) : List Char → Nat × List Char
  | [] => (n, [])
  | c :: r =>
    let m := 10 * n + digitValue c
    if m ≤ greatestWhole then collect m r else (n, c :: r)

def powerLimit : Nat := 308

def tenTo (n : Nat) : Binary := .ofNat .double (Nat.pow 10 n)

/-- A number times a power of ten, in steps no larger than the greatest power that there is. A number
that becomes infinite is refused. -/
def scale? (fuel : Nat) (f : Binary) (exponent : Int) : Option Binary :=
  match fuel with
  | 0 => none
  | fuel + 1 =>
    if exponent.natAbs ≤ powerLimit then
      if 0 ≤ exponent then
        let g := f.mul .double (tenTo exponent.natAbs)
        if g.isFinite .double then some g else none
      else some (f.div .double (tenTo exponent.natAbs))
    else if f.mantissa = 0 then some f
    else if 0 ≤ exponent then none
    else scale? fuel (f.div .double (tenTo powerLimit)) (exponent + powerLimit)

/-- Three steps down reach zero from every whole number. -/
def scaled? (n : Nat) (exponent : Int) : Option Binary := scale? 5 (.ofNat .double n) exponent

/-- Whole numbers are kept from -2^63 to 2^64 - 1, but for a zero with a sign. -/
def wholeNumber (negative : Bool) (n : Nat) : Json :=
  if !negative then .int n
  else if 0 < n ∧ n ≤ 0x8000000000000000 then .int (-n)
  else .decimal (.ofBinary true (.ofNat .double n))

/-- A number by its parts: the digits before the point, those behind it if there is one, and the sign
and digits of the exponent if there is one. -/
def ofParts? (negative : Bool) (whole : List Char) (fraction : Option (List Char))
    (exponent : Option (Bool × List Char)) : Option Json :=
  let (n, left) := collect 0 whole
  if left.isEmpty && fraction.isNone && exponent.isNone then some (wholeNumber negative n)
  else
    let behind := fraction.getD []
    let (m, rest) := collect n behind
    let power : Int := left.length - (behind.length - rest.length : Nat)
    let decimal (b : Binary) : Json := .decimal (.ofBinary negative b)
    match exponent with
    | none => (scaled? m power).map decimal
    | some (isNegative, ds) =>
      let e := ds.foldl (fun e c => 10 * e + digitValue c) 0
      if e ≤ 0x7fffffff then
        (scaled? m (if isNegative then power - e else power + e)).map decimal
      else if m = 0 || isNegative then some (decimal (.ofNat .double 0))
      else none

/-- The exponent behind its letter: perhaps a sign, and digits. -/
def exponent? (cs : List Char) : Option (Bool × List Char) :=
  let (isNegative, ds) := match cs with
    | '-' :: ds => (true, ds)
    | '+' :: ds => (false, ds)
    | ds => (false, ds)
  if !ds.isEmpty && ds.all Char.isDigit then some (isNegative, ds) else none

/-- Digits, then perhaps a point and digits, then perhaps an exponent; no zero leads. -/
def number? (cs : List Char) : Option Json := do
  let (negative, cs) := match cs with
    | '-' :: r => (true, r)
    | cs => (false, cs)
  let whole := cs.takeWhile Char.isDigit
  if whole.isEmpty || (whole.head? == some '0' && whole.length ≠ 1) then none
  else
    let (fraction, rest) := match cs.dropWhile Char.isDigit with
      | '.' :: r => (some (r.takeWhile Char.isDigit), r.dropWhile Char.isDigit)
      | r => (none, r)
    if fraction == some [] then none
    else
      match rest with
      | [] => ofParts? negative whole fraction none
      | c :: r =>
        if c == 'e' || c == 'E' then ofParts? negative whole fraction (some (← exponent? r)) else none

end RolloutControl.Json
