import RolloutControl.Text.Blank
import RolloutControl.Time.Calendar
/-! Instants on the UTC time line and their spelling with a date, a time of day and an offset. Date and
time may be written with separators or without, and annotations in brackets may follow. -/

namespace RolloutControl

/-- Seconds since the beginning of 1970, and the part of a second after them in nanoseconds. -/
structure Instant where
  seconds : Int
  nanos : Nat
deriving DecidableEq, Repr, Inhabited

namespace Instant

/-- The instants that can be spelled, with a margin for every offset. -/
def isInRange (i : Instant) : Bool := -377705023201 ≤ i.seconds && i.seconds ≤ 253402207200

/-- A number of exactly so many digits, no greater than `most`, and what follows it. -/
def digits? (n most : Nat) (cs : List Char) : Option (Nat × List Char) := do
  let ds := cs.take n
  let v ← Text.number? 10 ds
  if ds.length = n ∧ ds.all Char.isDigit ∧ v ≤ most then some (v, cs.drop n) else none

def skip? (c : Char) : List Char → Option (List Char)
  | d :: r => if d = c then some r else none
  | [] => none

def startsWithTwoDigits : List Char → Bool
  | a :: b :: _ => a.isDigit && b.isDigit
  | _ => false

/-- A part of two digits that may be missing. In the extended form a colon leads to it. -/
def part? (extended : Bool) (most : Nat) (cs : List Char) : Option (Option Nat × List Char) :=
  if extended then
    match cs with
    | ':' :: r => (digits? 2 most r).map fun p => (some p.1, p.2)
    | r => some (none, r)
  else if startsWithTwoDigits cs then (digits? 2 most cs).map fun p => (some p.1, p.2)
  else some (none, cs)

def fraction? : List Char → Option (Nat × List Char)
  | c :: r =>
    if c = '.' || c = ',' then
      let ds := (r.takeWhile Char.isDigit).take 9
      (Calendar.nanosOf ds).map fun n => (n, r.drop ds.length)
    else some (0, c :: r)
  | [] => some (0, [])

/-- Four digits, or six of them behind a sign; zero is not negative. -/
def year? (cs : List Char) : Option (Int × List Char) :=
  let signed (sign : Int) (r : List Char) : Option (Int × List Char) := do
    let (n, r) ← digits? 6 9999 r
    if n = 0 ∧ sign < 0 then none else some (sign * n, r)
  match cs with
  | '+' :: r => signed 1 r
  | '-' :: r => signed (-1) r
  | cs => (digits? 4 9999 cs).map fun p => ((p.1 : Int), p.2)

def date? (cs : List Char) : Option ((Int × Nat × Nat) × List Char) := do
  let (year, r) ← year? cs
  let extended := r.head? == some '-'
  let (month, r) ← digits? 2 12 (if extended then r.tail else r)
  let (day, r) ← digits? 2 31 (← if extended then skip? '-' r else some r)
  if month = 0 || day = 0 || Calendar.daysInMonth year month < day then none
  else some ((year, month, day), r)

/-- A time of day in seconds and nanoseconds, of which all but the hours may be missing. The sixtieth
second counts as the one before it. -/
def timeOfDay? (cs : List Char) : Option (Nat × Nat × List Char) := do
  let (hour, r) ← digits? 2 23 cs
  let extended := r.head? == some ':'
  let (minute, r) ← part? extended 59 r
  match minute with
  | none => some (hour * 3600, 0, r)
  | some minute =>
    let (second, r) ← part? extended 60 r
    match second with
    | none => some (hour * 3600 + minute * 60, 0, r)
    | some second =>
      let (nanos, r) ← fraction? r
      some (hour * 3600 + minute * 60 + min second 59, nanos, r)

def greatestOffset : Nat := 93599

def clockOffset? (fine : Bool) (cs : List Char) : Option (Nat × List Char) := do
  let (hours, r) ← digits? 2 25 cs
  let extended := r.head? == some ':'
  let (minutes, r) ← part? extended 59 r
  match minutes with
  | none => some (hours * 3600, r)
  | some minutes =>
    if !fine then some (hours * 3600 + minutes * 60, r)
    else
      let (seconds, r) ← part? extended 59 r
      match seconds with
      | none => some (hours * 3600 + minutes * 60, r)
      | some seconds =>
        let (nanos, r) ← fraction? r
        let total := hours * 3600 + minutes * 60 + seconds + (if nanos < 500000000 then 0 else 1)
        if total ≤ greatestOffset then some (total, r) else none

def offset? : List Char → Option (Int × List Char)
  | 'Z' :: r | 'z' :: r => some (0, r)
  | '+' :: r => (clockOffset? true r).map fun p => ((p.1 : Int), p.2)
  | '-' :: r => (clockOffset? true r).map fun p => (-(p.1 : Int), p.2)
  | _ => none

def isAsciiLower (c : Char) : Bool := 'a' ≤ c && c ≤ 'z'

def isAsciiUpper (c : Char) : Bool := 'A' ≤ c && c ≤ 'Z'

/-- The parts of the name of a time zone: a letter, point or underscore, and then more. -/
def isZonePart : List Char → Bool
  | [] => false
  | c :: r =>
    let starts (c : Char) := c == '.' || c == '_' || isAsciiLower c || isAsciiUpper c
    starts c && r.all fun d => starts d || d == '-' || d == '+' || d.isDigit

def isZone (cs : List Char) : Bool :=
  match cs with
  | '+' :: r | '-' :: r => (clockOffset? false r).any fun p => p.2.isEmpty
  | cs => ((Text.splitList (· == '/') cs)).all isZonePart

/-- A key and its values between dashes, as annotations other than time zones have them. -/
def isProperty (cs : List Char) : Bool :=
  match cs.span (· != '=') with
  | (c :: key, '=' :: values) =>
    (c == '_' || isAsciiLower c) &&
      key.all (fun d => d == '-' || d == '_' || d.isDigit || isAsciiLower d) &&
      (Text.splitList (· == '-') values).all fun v =>
        !v.isEmpty && v.all fun d => d.isDigit || isAsciiLower d || isAsciiUpper d
  | _ => false

/-- The annotations at the end: perhaps a time zone, and properties. A property must not be marked as
critical. -/
def annotations? (fuel : Nat) (zoneAllowed : Bool) (cs : List Char) : Bool :=
  match fuel, cs with
  | _, [] => true
  | 0, _ => false
  | fuel + 1, '[' :: r =>
    match r.span (· != ']') with
    | (body, ']' :: r) =>
      let isCritical := body.head? == some '!'
      let body := if isCritical then body.tail else body
      ((zoneAllowed && isZone body) || (!isCritical && isProperty body)) && annotations? fuel false r
    | _ => false
  | _, _ => false

def parse? (s : String) : Option Instant := do
  let ((year, month, day), r) ← date? s.toList
  let r ← match r with
    | 'T' :: r | 't' :: r | ' ' :: r => some r
    | _ => none
  let (time, nanos, r) ← timeOfDay? r
  let (offset, r) ← offset? r
  let i : Instant := ⟨Calendar.daysOfDate year month day * 86400 + time - offset, nanos⟩
  if annotations? (r.length + 1) true r && i.isInRange then some i else none

def yearText (year : Int) : String :=
  if year < 0 then "-" ++ Calendar.padded 6 year.natAbs else Calendar.padded 4 year.natAbs

def text (i : Instant) : String :=
  let fraction :=
    if i.nanos = 0 then ""
    else
      let ds := (Calendar.padded 9 i.nanos).toList
      "." ++ String.ofList (ds.reverse.dropWhile (· == '0')).reverse
  Calendar.spell yearText (fun s => Calendar.padded 2 s ++ fraction) i.seconds

end Instant

end RolloutControl
