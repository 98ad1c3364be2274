import RolloutControl.Number.Binary
/-! Delays in nanoseconds. They are doubled as seconds in single precision, so that a long delay is only
nearly twice the one before. -/

namespace RolloutControl.Delay

def perMilli : Nat := 1000000

def perSecond : Nat := 1000000000

def ofMillis (ms : Nat) : Nat := ms * perMilli

/-- The delay in whole milliseconds, to the nearest. -/
def toMillis (d : Nat) : Nat := (d + perMilli / 2) / perMilli

def wholeMillis (d : Nat) : Nat := (d + perMilli - 1) / perMilli

@[simp] theorem toMillis_ofMillis (ms : Nat) : toMillis (ofMillis ms) = ms := by
  simp only [toMillis, ofMillis, perMilli]
  omega

@[simp] theorem wholeMillis_ofMillis (ms : Nat) : wholeMillis (ofMillis ms) = ms := by
  simp only [wholeMillis, ofMillis, perMilli]
  omega

/-- The delay in seconds, in single precision. -/
def seconds (d : Nat) : Binary :=
  let fraction := (Binary.ofNat .single (d % perSecond)).div .single (.ofNat .single perSecond)
  (Binary.ofNat .single (d / perSecond)).add .single fraction

def ofSeconds (b : Binary) : Nat :=
  let (n, den) := b.fraction
  Binary.roundDiv (n * perSecond) den

/-- Twice a delay, as far as single precision goes. -/
def doubled (d : Nat) : Nat :=
  let b := seconds d
  ofSeconds { b with exponent := b.exponent + 1 }

end RolloutControl.Delay
