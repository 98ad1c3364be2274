import RolloutControl.Text.Number
/-! The Gregorian calendar, extended to all years, and the pieces of which times are spelled. -/

namespace RolloutControl.Calendar

/-- Days from the beginning of 1970 to a date, by counting years from March on. -/
def daysOfDate (year : Int) (month day : Nat) : Int :=
  let y := if month ≤ 2 then year - 1 else year
  let era := y.fdiv 400
  let yearOfEra := y - era * 400
  let m : Int := if 2 < month then month - 3 else month + 9
  let dayOfYear := (153 * m + 2) / 5 + day - 1
  let dayOfEra := yearOfEra * 365 + yearOfEra / 4 - yearOfEra / 100 + dayOfYear
  era * 146097 + dayOfEra - 719468

def dateOfDays (days : Int) : Int × Nat × Nat :=
  let z := days + 719468
  let era := z.fdiv 146097
  let dayOfEra := z - era * 146097
  let yearOfEra := (dayOfEra - dayOfEra / 1460 + dayOfEra / 36524 - dayOfEra / 146096) / 365
  let dayOfYear := dayOfEra - (365 * yearOfEra + yearOfEra / 4 - yearOfEra / 100)
  let m := (5 * dayOfYear + 2) / 153
  let day := dayOfYear - (153 * m + 2) / 5 + 1
  let month := if m < 10 then m + 3 else m - 9
  let year := yearOfEra + era * 400
  (if month ≤ 2 then year + 1 else year, month.toNat, day.toNat)

def isLeapYear (year : Int) : Bool := year % 4 == 0 && (year % 100 != 0 || year % 400 == 0)

def daysInMonth (year : Int) (month : Nat) : Nat :=
  if month = 2 then (if isLeapYear year then 29 else 28)
  else if month = 4 ∨ month = 6 ∨ month = 9 ∨ month = 11 then 30
  else 31

def secondsOf (year : Int) (month day hour minute second : Nat) : Int :=
  daysOfDate year month day * 86400 + hour * 3600 + minute * 60 + second

def nanosOf (ds : List Char) : Option Nat :=
  (Text.number? 10 ds).map fun n => n * Nat.pow 10 (9 - ds.length)

def padded (width n : Nat) : String :=
  let ds := Nat.toDigits 10 n
  String.ofList (List.replicate (width - ds.length) '0' ++ ds)

/-- A day and a time of day in UTC, where `year` spells the year and `second` the seconds. -/
def spell (year : Int → String) (second : Nat → String) (seconds : Int) : String :=
  let days := seconds.fdiv 86400
  let rest := (seconds - days * 86400).toNat
  let (y, month, day) := dateOfDays days
  year y ++ "-" ++ padded 2 month ++ "-" ++ padded 2 day ++ "T" ++ padded 2 (rest / 3600) ++ ":" ++
    padded 2 (rest / 60 % 60) ++ ":" ++ second (rest % 60) ++ "Z"

end RolloutControl.Calendar
