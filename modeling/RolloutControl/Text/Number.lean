/-! Decimal and hexadecimal spellings of whole numbers. -/

namespace RolloutControl.Text

def natural (n : Nat) : String := String.ofList (Nat.toDigits 10 n)

def integer (n : Int) : String :=
  if n < 0 then "-" ++ natural n.natAbs else natural n.natAbs

theorem natural_injective {m n : Nat} (h : natural m = natural n) : m = n := by
  have h := congrArg (fun s => Nat.ofDigitChars 10 s.toList 0) h
  simpa [natural, Nat.ofDigitChars_toDigits] using h

theorem natural_ne_minus (m n : Nat) : "-" ++ natural m ≠ natural n := by
  intro h
  have hmem : '-' ∈ (natural n).toList := by simp [← h]
  have hdigit := Nat.isDigit_of_mem_toDigits (by decide) (by decide)
    (by simpa [natural] using hmem : '-' ∈ Nat.toDigits 10 n)
  exact absurd hdigit (by decide)

theorem integer_injective {m n : Int} (h : integer m = integer n) : m = n := by
  unfold integer at h
  split at h <;> split at h
  · have := natural_injective ((String.append_right_inj "-").1 h)
    omega
  · exact absurd h (natural_ne_minus _ _)
  · exact absurd h.symm (natural_ne_minus _ _)
  · have := natural_injective h
    omega

def hexadecimal (width n : Nat) : String :=
  let ds := Nat.toDigits 16 n
  String.ofList (List.replicate (width - ds.length) '0' ++ ds)

def digitValue? (base : Nat) (c : Char) : Option Nat :=
  let v :=
    if '0' ≤ c ∧ c ≤ '9' then some (c.toNat - '0'.toNat)
    else if 'a' ≤ c ∧ c ≤ 'z' then some (c.toNat - 'a'.toNat + 10)
    else if 'A' ≤ c ∧ c ≤ 'Z' then some (c.toNat - 'A'.toNat + 10)
    else none
  v.filter (· < base)

/-- A number written with digits of the base only, and with at least one. -/
def number? (base : Nat) (cs : List Char) : Option Nat :=
  if cs.isEmpty then none
  else cs.foldl (fun acc c => do some ((← acc) * base + (← digitValue? base c))) (some 0)

end RolloutControl.Text
