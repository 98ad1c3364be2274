import RolloutControl.Effect.Program
/-! Changing the operator resource while others may change it too. Every attempt reads the resource
afresh and writes only if nobody else has written since; after a conflict there is another attempt, a
bounded number of times. What is the same already is not written. -/

namespace RolloutControl

/-- How one attempt to write ends. -/
inductive Attempt (α : Type)
  | finished (result : Except Error α)
  | conflicted (e : Error)

namespace Attempt

def ofWrite {α : Type} (a : α) : Except Error OperatorResource → Attempt α
  | .ok _ => .finished (.ok a)
  | .error e => if e.isConflict then .conflicted e else .finished (.error e)

def retries : Nat := 5

/-- How long it takes to the next attempt, in milliseconds. -/
def pause : Nat := 10

/-- Attempts until one is finished. The last conflict is an error. -/
def repeated {α : Type} (attempt : Program (Attempt α)) : Nat → Program (Except Error α)
  | 0 => do
    match ← attempt with
    | .finished result => pure result
    | .conflicted e => pure (.error e)
  | n + 1 => do
    match ← attempt with
    | .finished result => pure result
    | .conflicted _ => do
      Program.ask (.sleep pause)
      repeated attempt n

end Attempt

/-- The status as it is stored afterwards, and whether it was written. -/
abbrev StatusUpdate := OperatorStatus × Bool

def statusAttempt (change : Instant → OperatorStatus → OperatorStatus) :
    Program (Attempt StatusUpdate) := do
  match ← Program.ask .getOperator with
  | .error e => pure (.finished (.error e))
  | .ok current =>
    let now ← Program.ask .clock
    let old := current.statusOrEmpty
    let new := change now old
    if new = old then pure (.finished (.ok (old, false)))
    else
      match ← Program.ask (.writeStatus current.version new) with
      | .ok stored => pure (.finished (.ok (stored.statusOrEmpty, true)))
      | .error e => pure (if e.isConflict then .conflicted e else .finished (.error e))

def updateStatus (change : Instant → OperatorStatus → OperatorStatus) :
    Program (Except Error StatusUpdate) :=
  Attempt.repeated (statusAttempt change) Attempt.retries

/-- The document that was stored before, and whether another one was written. -/
abbrev DocumentUpdate := Document × Bool

def observedConfigAttempt (document : Document) : Program (Attempt DocumentUpdate) := do
  match ← Program.ask .getOperator with
  | .error e => pure (.finished (.error e))
  | .ok current =>
    match Document.ofJson current.spec.observedConfig with
    | .error e => pure (.finished (.error e))
    | .ok previous =>
      if previous.same document then pure (.finished (.ok (previous, false)))
      else
        let spec := { current.spec with observedConfig := document.toJson }
        return Attempt.ofWrite (previous, true) (← Program.ask (.writeSpec current.version spec))

def updateObservedConfig (document : Document) : Program (Except Error DocumentUpdate) :=
  Attempt.repeated (observedConfigAttempt document) Attempt.retries

end RolloutControl
