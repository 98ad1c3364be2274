import RolloutControl.Number.Binary
import RolloutControl.Text.Number
/-! Numbers with a fraction, each as the shortest decimal that names it in double precision. Decimals are
in lowest terms: the last digit is not zero, and zero itself has exponent zero. -/

namespace RolloutControl

structure Decimal where
  negative : Bool
  digits : Nat
  exponent : Int
deriving DecidableEq, Repr, Inhabited

namespace Decimal

def stripZeros (fuel : Nat) (digits : Nat) (exponent : Int) : Nat × Int :=
  match fuel with
  | 0 => (digits, exponent)
  | fuel + 1 =>
    if digits % 10 = 0 then stripZeros fuel (digits / 10) (exponent + 1) else (digits, exponent)

/-- The decimal `digits * 10 ^ exponent`, in lowest terms. -/
def ofScientific (negative : Bool) (digits : Nat) (exponent : Int) : Decimal :=
  if digits = 0 then ⟨negative, 0, 0⟩
  else
    let (d, e) := stripZeros (Nat.toDigits 10 digits).length digits exponent
    ⟨negative, d, e⟩

def zeros (n : Nat) : List Char := List.replicate n '0'

/-- Positional between 1e-5 and 1e16, with a digit on each side of the point, else scientific, where
`plus` stands before an exponent that is not negative. -/
def textWith (plus : String) (d : Decimal) : String :=
  let ds := Nat.toDigits 10 d.digits
  let point : Int := ds.length + d.exponent
  let body : List Char :=
    if 0 ≤ d.exponent ∧ point ≤ 16 then ds ++ zeros d.exponent.toNat ++ ['.', '0']
    else if 0 < point ∧ point ≤ 16 then ds.take point.toNat ++ '.' :: ds.drop point.toNat
    else if -5 < point ∧ point ≤ 0 then ['0', '.'] ++ zeros (-point).toNat ++ ds
    else
      (match ds with
       | [] => []
       | [c] => [c]
       | c :: r => c :: '.' :: r) ++ 'e' :: (if 0 < point then plus else "").toList ++
        (Text.integer (point - 1)).toList
  String.ofList (if d.negative then '-' :: body else body)

def text (d : Decimal) : String := d.textWith "+"

def ofBinary (negative : Bool) (b : Binary) : Decimal :=
  let (digits, exponent) := b.shortest .double
  ofScientific negative digits exponent

/-- The number in double precision nearest to `digits * 10 ^ exponent`, unless that is infinite. -/
def nearest? (digits : Nat) (exponent : Int) : Option Binary :=
  let places := (Nat.toDigits 10 digits).length + exponent
  if digits = 0 || places < -400 then some ⟨0, Precision.double.least⟩
  else if 400 < places then none
  else
    let b := Binary.nearest .double (digits * Nat.pow 10 exponent.toNat)
      (Nat.pow 10 (-exponent).toNat)
    if b.isFinite .double then some b else none

def rounded? (negative : Bool) (digits : Nat) (exponent : Int) : Option Decimal :=
  (nearest? digits exponent).map (ofBinary negative)

def unsignedZero (d : Decimal) : Decimal := if d.digits = 0 then { d with negative := false } else d

end Decimal

end RolloutControl
