import RolloutControl.Queue.Delay
/-! Delays between retries. A backoff hands out a sequence of delays, repeats the last one when the
sequence is over, and starts again after a reset. -/

namespace RolloutControl

/-- A sequence of delays in nanoseconds that ends at most once. -/
structure Delays where
  nth : Nat → Option Nat
  ended : ∀ n, nth n = none → nth (n + 1) = none

namespace Delays

/-- The base, and then the delay before as it grows, but no more than the maximum. -/
def exponentialDelay (grow : Nat → Nat) (base max : Nat) : Nat → Nat
  | 0 => base
  | n + 1 =>
    let d := exponentialDelay grow base max n
    min (if d < max then grow d else d) max

def exponential (grow : Nat → Nat) (base max : Nat) : Delays where
  nth n := some (exponentialDelay grow base max n)
  ended n h := by simp at h

def constant (delay times : Nat) : Delays where
  nth n := if n < times then some delay else none
  ended n h := by
    simp only [ite_eq_right_iff, reduceCtorEq, imp_false, Nat.not_lt] at h ⊢
    omega

end Delays

structure Backoff where
  delays : Delays
  /-- How many delays of the sequence have been asked for. -/
  asked : Nat := 0
  last : Option Nat := none
  /-- How many delays have been handed out. -/
  attempts : Nat := 0

namespace Backoff

def next? (b : Backoff) : Option Nat := b.delays.nth b.asked <|> b.last

def advance (b : Backoff) : Backoff :=
  match b.next? with
  | some d => { b with asked := b.asked + 1, last := some d, attempts := b.attempts + 1 }
  | none => { b with asked := b.asked + 1 }

def reset (b : Backoff) : Backoff := { delays := b.delays }

end Backoff

end RolloutControl
