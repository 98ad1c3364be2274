import RolloutControl.Text.Blank
import RolloutControl.Time.Calendar
/-! Time stamps of objects. They are written to the second; they are read with blanks between their
parts, numbers of few digits, and an offset in hours and minutes. -/

namespace RolloutControl

/-- Seconds since the beginning of 1970. A leap second comes after one that is spelled as the last of its
minute. -/
structure Stamp where
  seconds : Int
  isLeap : Bool := false
deriving DecidableEq, Repr, Inhabited

namespace Stamp

def skipBlanks (cs : List Char) : List Char := cs.dropWhile Text.isBlank

def number? (most : Nat) (cs : List Char) : Option (Nat × List Char) := do
  let cs := skipBlanks cs
  let ds := (cs.take most).takeWhile Char.isDigit
  some (← Text.number? 10 ds, cs.drop ds.length)

def numberIn? (least most : Nat) (cs : List Char) : Option (Nat × List Char) :=
  (number? 2 cs).filter fun p => least ≤ p.1 && p.1 ≤ most

def year? (cs : List Char) : Option (Int × List Char) :=
  let cs := skipBlanks cs
  let signed (sign : Int) (r : List Char) : Option (Int × List Char) := do
    let ds := r.takeWhile Char.isDigit
    some (sign * (← Text.number? 10 ds), r.drop ds.length)
  match cs with
  | '+' :: r => signed 1 r
  | '-' :: r => signed (-1) r
  | cs => (number? 4 cs).map fun p => ((p.1 : Int), p.2)

def mark? (c : Char) (cs : List Char) : Option (List Char) :=
  match skipBlanks cs with
  | d :: r => if d = c then some r else none
  | [] => none

def isYear (year : Int) : Bool := -262143 ≤ year && year ≤ 262142

def date? (cs : List Char) : Option (Int × List Char) := do
  let (year, r) ← year? cs
  let (month, r) ← numberIn? 1 12 (← mark? '-' r)
  let (day, r) ← numberIn? 1 31 (← mark? '-' r)
  if isYear year && day ≤ Calendar.daysInMonth year month then
    some (Calendar.daysOfDate year month day, r)
  else none

def fraction? : List Char → Option (List Char)
  | '.' :: r =>
    match r.dropWhile Char.isDigit with
    | rest => if rest.length < r.length then some rest else none
  | r => some r

/-- A time of day in seconds, and whether it is a leap second. -/
def timeOfDay? (cs : List Char) : Option (Nat × Bool × List Char) := do
  let (hour, r) ← numberIn? 0 23 cs
  let (minute, r) ← numberIn? 0 59 (← mark? ':' r)
  let (second, r) ← numberIn? 0 60 (← mark? ':' r)
  some (hour * 3600 + minute * 60 + min second 59, second = 60, ← fraction? r)

def twoDigits? : List Char → Option (Nat × List Char)
  | a :: b :: r => if a.isDigit && b.isDigit then (Text.number? 10 [a, b]).map fun n => (n, r) else none
  | _ => none

/-- The offset from UTC in seconds, and what follows it: a Z, the name of UTC, or a sign with hours and
minutes, which colons and blanks may separate. It is less than a day. -/
def offset? (cs : List Char) : Option (Int × List Char) :=
  let clock (sign : Int) (r : List Char) : Option (Int × List Char) := do
    let (hours, r) ← twoDigits? r
    let (minutes, r) ← twoDigits? (r.dropWhile fun c => c == ':' || Text.isBlank c)
    if minutes < 60 ∧ hours < 24 then some (sign * (hours * 3600 + minutes * 60 : Nat), r) else none
  if (cs.take 3).map Char.toUpper = ['U', 'T', 'C'] then some (0, cs.drop 3)
  else
    match cs with
    | 'Z' :: r | 'z' :: r => some (0, r)
    | '+' :: r => clock 1 r
    | '-' :: r | '\u2212' :: r => clock (-1) r
    | _ => none

def parse? (s : String) : Option Stamp := do
  let (days, r) ← date? s.toList
  let r ← match r with
    | 'T' :: r | 't' :: r | ' ' :: r => some r
    | _ => none
  let (time, isLeap, r) ← timeOfDay? r
  let (offset, r) ← offset? (skipBlanks r)
  let t : Stamp := ⟨days * 86400 + time - offset, isLeap⟩
  if (skipBlanks r).isEmpty && isYear (Calendar.dateOfDays (t.seconds.fdiv 86400)).1 then some t
  else none

def yearText (year : Int) : String :=
  if 0 ≤ year ∧ year ≤ 9999 then Calendar.padded 4 year.natAbs
  else (if year < 0 then "-" else "+") ++ Calendar.padded 4 year.natAbs

def text (t : Stamp) : String :=
  Calendar.spell yearText (fun s => Calendar.padded 2 (if t.isLeap then s + 1 else s)) t.seconds

end Stamp

end RolloutControl
