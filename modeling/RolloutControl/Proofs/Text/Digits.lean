import Mathlib.Algebra.Group.Nat.Defs
import Mathlib.Data.List.Induction
import RolloutControl.Text.Number
/-! Numbers are read back from their digits, whatever zeros stand in front of them. -/

namespace RolloutControl.Text

variable {base n : Nat} {c : Char} {cs : List Char}

theorem digitValue?_digitChar (hbase : base ≤ 16) {d : Nat} (hd : d < base) : digitValue? base d.digitChar = some d := by
  have hvalue : ∀ d < 16, digitValue? 16 d.digitChar = some d := by decide
  have hsome := hvalue d (by omega)
  unfold digitValue? at hsome ⊢
  rw [Option.filter_eq_some_iff] at hsome ⊢
  exact ⟨hsome.1, decide_eq_true hd⟩

def shift (base : Nat) (acc : Option Nat) (c : Char) : Option Nat := do
  some ((← acc) * base + (← digitValue? base c))

theorem number?_eq_foldl (h : cs ≠ []) : number? base cs = cs.foldl (shift base) (some 0) :=
  if_neg (by simpa using h)

theorem number?_concat {m d : Nat} (hne : cs ≠ []) (h : number? base cs = some m) (hc : digitValue? base c = some d) :
    number? base (cs ++ [c]) = some (m * base + d) := by
  rw [number?_eq_foldl hne] at h
  rw [number?_eq_foldl (by simp), List.foldl_append, h]
  simp [shift, hc]

/-- A number is read back from its digits. -/
theorem number?_toDigits (hbase : 1 < base) (hbase' : base ≤ 16) (n : Nat) :
    number? base (Nat.toDigits base n) = some n := by
  induction n using Nat.base_induction base hbase with
  | single d hd =>
    rw [Nat.toDigits_of_lt_base hd, number?_eq_foldl (List.cons_ne_nil _ _)]
    simp [shift, digitValue?_digitChar hbase' hd]
  | digit m d hd hm ih =>
    rw [← Nat.toDigits_append_toDigits hbase hm hd, Nat.toDigits_of_lt_base hd,
      number?_concat Nat.toDigits_ne_nil ih (digitValue?_digitChar hbase' hd), Nat.mul_comm]

theorem foldl_shift_none (l : List Char) : l.foldl (shift base) none = none := by
  induction l with
  | nil => rfl
  | cons c l ih => exact ih

theorem number?_eq_none (hmem : c ∈ cs) (hc : digitValue? base c = none) : number? base cs = none := by
  obtain ⟨before, after, rfl⟩ := List.append_of_mem hmem
  have hc' (acc : Option Nat) : shift base acc c = none := by cases acc <;> simp [shift, hc]
  rw [number?_eq_foldl (List.ne_nil_of_mem hmem), List.foldl_append, List.foldl_cons, hc', foldl_shift_none]

theorem exists_number? {ds : List Char} (hne : cs ≠ []) (h : number? base (cs ++ ds) = some n) :
    ∃ m, number? base cs = some m := by
  rw [number?_eq_foldl (List.append_ne_nil_of_left_ne_nil hne ds), List.foldl_append, ← number?_eq_foldl hne] at h
  cases hcs : number? base cs with
  | none =>
    rw [hcs, foldl_shift_none] at h
    cases h
  | some m => exact ⟨m, rfl⟩

theorem not_mem_toDigits (hbase : 1 < base) (hbase' : base ≤ 16) (hc : digitValue? base c = none) (n : Nat) :
    c ∉ Nat.toDigits base n := by
  intro hmem
  have h := number?_toDigits hbase hbase' n
  rw [number?_eq_none hmem hc] at h
  cases h

theorem digitValue?_lt {d : Nat} (h : digitValue? base c = some d) : d < base := by
  unfold digitValue? at h
  exact of_decide_eq_true (Option.filter_eq_some_iff.1 h).2

theorem lt_pow_of_foldl (h : cs.foldl (shift base) (some 0) = some n) : n < base ^ cs.length := by
  induction cs using List.reverseRecOn generalizing n with
  | nil =>
    obtain rfl : 0 = n := Option.some.inj h
    exact Nat.one_pos
  | append_singleton cs c ih =>
    rw [List.foldl_append, List.foldl_cons, List.foldl_nil] at h
    obtain ⟨m, hm, hn⟩ := Option.bind_eq_some_iff.1 h
    obtain ⟨d, hd, hn⟩ := Option.bind_eq_some_iff.1 hn
    obtain rfl : m * base + d = n := Option.some.inj hn
    have hlt : d < base := digitValue?_lt hd
    calc m * base + d < (m + 1) * base := by rw [Nat.succ_mul]; omega
      _ ≤ base ^ cs.length * base := Nat.mul_le_mul_right base (ih hm)
      _ = base ^ (cs ++ [c]).length := by rw [List.length_append, List.length_singleton, Nat.pow_succ]

theorem number?_lt (h : number? base cs = some n) : n < base ^ cs.length := by
  cases cs with
  | nil => cases h
  | cons c cs => exact lt_pow_of_foldl (number?_eq_foldl (List.cons_ne_nil c cs) ▸ h)

theorem digitValue?_zero (hbase : 0 < base) : digitValue? base '0' = some 0 := by simp [digitValue?, hbase]

theorem number?_zeros_append (hbase : 0 < base) (k : Nat) (h : cs ≠ []) :
    number? base (List.replicate k '0' ++ cs) = number? base cs := by
  have hzeros : (List.replicate k '0').foldl (shift base) (some 0) = some 0 := by
    induction k with
    | zero => rfl
    | succ k ih => simpa [List.replicate_succ, shift, digitValue?_zero hbase] using ih
  rw [number?_eq_foldl h, number?_eq_foldl (List.append_ne_nil_of_right_ne_nil _ h), List.foldl_append, hzeros]

theorem number?_append_zeros (hbase : 0 < base) (k : Nat) (hne : cs ≠ []) (h : number? base cs = some n) :
    number? base (cs ++ List.replicate k '0') = some (n * base ^ k) := by
  induction k with
  | zero => simpa using h
  | succ k ih =>
    have hne' : cs ++ List.replicate k '0' ≠ [] := List.append_ne_nil_of_left_ne_nil hne _
    rw [List.replicate_succ', ← List.append_assoc, number?_concat hne' ih (digitValue?_zero hbase), Nat.pow_succ,
      Nat.mul_assoc, Nat.add_zero]

end RolloutControl.Text
