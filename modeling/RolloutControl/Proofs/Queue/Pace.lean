import Mathlib.Algebra.Group.Nat.Defs
import RolloutControl.Proofs.Queue.Consistency
/-! How long the retries of a key are put off: the first one by the base, and each of the following ones by the next
delay of the sequence, as many as there have been since the key was last forgotten. Nothing that happens to other keys
makes a difference, and no use of the queue does but retries and forgetting. -/

namespace RolloutControl

namespace Delay

/-- Twice a delay, without any rounding. -/
def twice (d : Nat) : Nat := 2 * d

end Delay

namespace Delays

variable {base max : Nat}

theorem exponentialDelay_succ (base max n : Nat) : exponentialDelay Delay.twice base max (n + 1) =
    min (2 * exponentialDelay Delay.twice base max n) max := by
  rw [exponentialDelay]
  generalize exponentialDelay Delay.twice base max n = d
  unfold Delay.twice
  split <;> omega

/-- A base that is no more than the maximum is doubled until the maximum is reached. -/
theorem exponentialDelay_twice (h : base ≤ max) (n : Nat) :
    exponentialDelay Delay.twice base max n = min (base * 2 ^ n) max := by
  induction n with
  | zero => simp [exponentialDelay, h]
  | succ n ih =>
    have hpow : base * 2 ^ (n + 1) = 2 * (base * 2 ^ n) := by rw [Nat.pow_succ', Nat.mul_left_comm]
    rw [exponentialDelay_succ, ih, hpow]
    omega

theorem exponentialDelay_mono (h : base ≤ max) {m n : Nat} (hmn : m ≤ n) :
    exponentialDelay Delay.twice base max m ≤ exponentialDelay Delay.twice base max n := by
  rw [exponentialDelay_twice h, exponentialDelay_twice h]
  have hpow : base * 2 ^ m ≤ base * 2 ^ n := Nat.mul_le_mul_left base (Nat.pow_le_pow_right Nat.two_pos hmn)
  omega

end Delays

namespace Queue

variable {κ : Type} [LT κ] {p q : Queue κ} {k : κ} {n : Nat}

/-- What the delays of retries depend on. -/
def pace (q : Queue κ) : Nat × Nat × (Nat → Nat) × Dict κ Backoff := (q.base, q.max, q.grow, q.failures)

theorem bounds_of_pace (h : p.pace = q.pace) : p.base = q.base ∧ p.max = q.max ∧ p.grow = q.grow := by
  simp only [pace, Prod.mk.injEq] at h
  exact ⟨h.1, h.2.1, h.2.2.1⟩

@[simp] theorem pace_enqueueAt (q : Queue κ) (k : κ) (due : Nat) : (q.enqueueAt k due).pace = q.pace := by
  unfold enqueueAt
  split <;> rfl

@[simp] theorem pace_cloneHandle (q : Queue κ) : q.cloneHandle.pace = q.pace := by
  unfold cloneHandle
  split <;> rfl

variable [DecidableEq κ]

theorem requeues_eq_attempts (q : Queue κ) (k : κ) : q.requeues k = (q.backoff k).attempts := by
  unfold requeues backoff
  cases q.failures.get? k <;> rfl

/-- The key was retried so many times since it was last forgotten. -/
structure Retried (q : Queue κ) (k : κ) (n : Nat) : Prop where
  delays : (q.backoff k).delays = q.freshBackoff.delays
  asked : (q.backoff k).asked = n
  attempts : (q.backoff k).attempts = n

theorem Retried.congr (h : q.Retried k n) (hpace : p.pace = q.pace) : p.Retried k n := by
  obtain ⟨index, agenda, mailbox, handles, base, max, grow, failures⟩ := p
  obtain ⟨rfl, rfl, rfl, rfl⟩ : base = q.base ∧ max = q.max ∧ grow = q.grow ∧ failures = q.failures := by
    simpa [pace] using hpace
  exact ⟨h.delays, h.asked, h.attempts⟩

theorem Retried.of_backoff (h : q.Retried k n) (hfresh : p.freshBackoff = q.freshBackoff)
    (hbackoff : p.backoff k = q.backoff k) : p.Retried k n := by
  constructor
  · rw [hfresh, hbackoff, h.delays]
  · rw [hbackoff, h.asked]
  · rw [hbackoff, h.attempts]

theorem retried_of_get?_eq_none (h : q.failures.get? k = none) : q.Retried k 0 := by
  have hfresh : q.backoff k = q.freshBackoff := by rw [backoff, h, Option.getD_none]
  exact ⟨by rw [hfresh], by rw [hfresh]; rfl, by rw [hfresh]; rfl⟩

theorem Retried.requeues_eq (h : q.Retried k n) : q.requeues k = n := (requeues_eq_attempts q k).trans h.attempts

theorem Retried.next? (h : q.Retried k n) : (q.backoff k).next? =
    some (Delays.exponentialDelay q.grow (Delay.ofMillis q.base) (Delay.ofMillis q.max) n) := by
  rw [Backoff.next?, h.delays, h.asked]
  rfl

theorem Retried.nextDelay_eq (h : q.Retried k n) :
    q.nextDelay k = Delays.exponentialDelay q.grow (Delay.ofMillis q.base) (Delay.ofMillis q.max) n := by
  rw [nextDelay, h.next?, Option.getD_some]

theorem Retried.advance (h : q.Retried k n) : (q.backoff k).advance =
    { delays := q.freshBackoff.delays, asked := n + 1, last := some (q.nextDelay k), attempts := n + 1 } := by
  rw [Backoff.advance, h.next?, h.nextDelay_eq, h.delays, h.asked, h.attempts]

theorem Retried.forget {j : κ} (h : q.Retried k n) : (q.forget j).Retried k (if j = k then 0 else n) := by
  split
  · next hj => exact retried_of_get?_eq_none (by simp [Queue.forget, hj])
  · next hj =>
    have hget : (q.forget j).failures.get? k = q.failures.get? k := by simp [Queue.forget, Ne.symm hj]
    exact h.of_backoff rfl (by rw [backoff, hget]; rfl)

variable [DecidableLT κ] [KeyOrder κ]

@[simp] theorem pace_schedule (q : Queue κ) (k : κ) (due : Nat) : (q.schedule k due).pace = q.pace := by
  unfold schedule
  split
  · split <;> rfl
  · rfl

@[simp] theorem pace_absorb (q : Queue κ) : q.absorb.pace = q.pace :=
  absorb_keeps (P := fun p => p.pace = q.pace) rfl fun p k due hp => (pace_schedule p k due).trans hp

@[simp] theorem pace_drain (q : Queue κ) (now : Nat) : (q.drain now).2.pace = q.pace := pace_absorb q

@[simp] theorem pace_poll (q : Queue κ) (now : Nat) : (q.poll now).2.pace = q.pace := by
  unfold poll
  dsimp only
  split
  · split <;> exact pace_absorb q
  · exact pace_absorb q

theorem pace_retry (q : Queue κ) (now : Nat) (k : κ) :
    (q.retry now k).pace = (q.base, q.max, q.grow, q.failures.insert k (q.backoff k).advance) :=
  pace_schedule _ k _

theorem bounds_retry (q : Queue κ) (now : Nat) (k : κ) :
    (q.retry now k).base = q.base ∧ (q.retry now k).max = q.max ∧ (q.retry now k).grow = q.grow :=
  bounds_of_pace (q := { q with failures := q.failures.insert k (q.backoff k).advance }) (pace_retry q now k)

theorem Retried.retry {j : κ} (h : q.Retried k n) (now : Nat) :
    (q.retry now j).Retried k (if j = k then n + 1 else n) := by
  have hretried : Retried { q with failures := q.failures.insert j (q.backoff j).advance } k
      (if j = k then n + 1 else n) := by
    split
    · next hj =>
      subst hj
      have hbackoff : backoff { q with failures := q.failures.insert j (q.backoff j).advance } j =
          (q.backoff j).advance := by simp [backoff]
      constructor <;> rw [hbackoff, h.advance]
      rfl
    · next hj => exact h.of_backoff rfl (by simp [backoff, Ne.symm hj, freshBackoff])
  exact hretried.congr (pace_retry q now j)

end Queue

end RolloutControl
