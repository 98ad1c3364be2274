/-! Numbers in binary floating point, without signs and infinities. Every operation rounds its exact
result to the nearest number of the format, and a tie to the even mantissa. -/

namespace RolloutControl

structure Binary where
  mantissa : Nat
  exponent : Int
deriving DecidableEq, Repr, Inhabited

/-- A format: how long mantissas are, the least exponent, and the number of binary places from which on
numbers are too large. -/
structure Precision where
  digits : Nat
  least : Int
  places : Int

namespace Precision

def single : Precision := ⟨24, -149, 128⟩

def double : Precision := ⟨53, -1074, 1024⟩

end Precision

namespace Binary

/-- The quotient as a whole number, to the nearest, and to the even one of two. -/
def roundDiv (num den : Nat) : Nat :=
  let q := num / den
  let r := num % den
  if 2 * r < den then q else if den < 2 * r then q + 1 else q + q % 2

/-- A fraction divided by a power of two. -/
def shifted (num den : Nat) (exponent : Int) : Nat × Nat :=
  (num * Nat.pow 2 (-exponent).toNat, den * Nat.pow 2 exponent.toNat)

def nearest (p : Precision) (num den : Nat) : Binary :=
  if num = 0 then ⟨0, p.least⟩
  else
    let guess : Int := (num.log2 : Int) - den.log2
    let (n, d) := shifted num den guess
    -- the logarithm of the fraction is the guess, or one less
    let top := if n < d then guess - 1 else guess
    let e := max p.least (top + 1 - p.digits)
    let (n, d) := shifted num den e
    let m := roundDiv n d
    -- a mantissa that is rounded up may become too long
    if m = Nat.pow 2 p.digits then ⟨m / 2, e + 1⟩ else ⟨m, e⟩

def isFinite (p : Precision) (b : Binary) : Bool :=
  b.mantissa = 0 || (b.mantissa.log2 : Int) + b.exponent < p.places

def fraction (b : Binary) : Nat × Nat :=
  (b.mantissa * Nat.pow 2 b.exponent.toNat, Nat.pow 2 (-b.exponent).toNat)

def mul (p : Precision) (a b : Binary) : Binary :=
  let (m, d) := a.fraction
  let (n, e) := b.fraction
  nearest p (m * n) (d * e)

def div (p : Precision) (a b : Binary) : Binary :=
  let (m, d) := a.fraction
  let (n, e) := b.fraction
  nearest p (m * e) (d * n)

def add (p : Precision) (a b : Binary) : Binary :=
  let (m, d) := a.fraction
  let (n, e) := b.fraction
  nearest p (m * e + n * d) (d * e)

def ofNat (p : Precision) (n : Nat) : Binary := nearest p n 1

/-- How often a fraction below one has to be multiplied by ten to be at least one. -/
def leadingZeros (fuel num den : Nat) : Nat :=
  match fuel with
  | 0 => 0
  | fuel + 1 => if den ≤ num then 0 else leadingZeros fuel (10 * num) den + 1

/-- How many decimal places a fraction has before the point, or less than one by how many zeros it has
behind it. -/
def decimalPlaces (num den : Nat) : Int :=
  if den ≤ num then (Nat.toDigits 10 (num / den)).length
  -- no number but zero is below 10 ^ -400 in double precision
  else 1 - (leadingZeros 400 num den : Int)

/-- The points of the decimal grid around a number, each with its distance. They stand for the number
if they are nearer to it than to its neighbours `low` and `high`, the bounds among them if `closed`. -/
def onGrid? (low value high den : Nat) (closed : Bool) (grid : Int) : Option Nat :=
  let unit := Nat.pow 10 grid.toNat * den
  let scale := Nat.pow 10 (-grid).toNat
  let (low, value, high) := (low * scale, value * scale, high * scale)
  let below := value / unit
  let stands (c : Nat) : Bool :=
    let point := c * unit
    if closed then low ≤ point && point ≤ high else low < point && point < high
  match stands below, stands (below + 1) with
  | false, false => none
  | true, false => some below
  | false, true => some (below + 1)
  | true, true => some (roundDiv value unit)

/-- The decimal with the fewest digits that is nearest to this number of the format, as a whole number
and a power of ten. -/
def shortest (p : Precision) (b : Binary) : Nat × Int :=
  if b.mantissa = 0 then (0, 0)
  else
    let quarter : Binary := ⟨1, b.exponent - 2⟩
    let (unit, den) := quarter.fraction
    -- below the least mantissa the next number is only half as far away
    let isLeast := b.mantissa = Nat.pow 2 (p.digits - 1) && p.least < b.exponent
    let value := 4 * b.mantissa * unit
    let low := (4 * b.mantissa - (if isLeast then 1 else 2)) * unit
    let high := (4 * b.mantissa + 2) * unit
    let places := decimalPlaces value den
    let tryDigits (k : Nat) : Option (Nat × Int) :=
      let grid := places - (k + 1 : Nat)
      (onGrid? low value high den (b.mantissa % 2 = 0) grid).map fun n => (n, grid)
    -- seventeen digits tell any two numbers apart
    ((List.range 17).findSome? tryDigits).getD (value / den, 0)

end Binary

end RolloutControl
