import RolloutControl.Dict
import RolloutControl.Queue.Backoff
/-! A work queue of keys with due times. A key that is requested twice is emitted once, at the earlier
of the two times. Requests of producers wait in a mailbox until the queue is polled. -/

namespace RolloutControl

structure Queue (κ : Type) [LT κ] where
  /-- When each waiting key is due. -/
  index : Dict κ Nat
  /-- The waiting keys in the order in which they fall due. -/
  agenda : List (κ × Nat)
  mailbox : List (κ × Nat)
  /-- How many producers can still send requests. -/
  handles : Nat
  /-- The first and the greatest delay of a retry, in milliseconds. -/
  base : Nat
  max : Nat
  /-- How delays grow. -/
  grow : Nat → Nat
  failures : Dict κ Backoff

namespace Queue

variable {κ : Type} [LT κ]

def new (base max : Nat) : Queue κ :=
  { index := ∅, agenda := [], mailbox := [], handles := 1, base, max, grow := Delay.doubled
    failures := ∅ }

def size (q : Queue κ) : Nat := q.index.size

/-- Enters a key behind those that are due no later. -/
def enter (k : κ) (due : Nat) : List (κ × Nat) → List (κ × Nat)
  | [] => [(k, due)]
  | e :: r => if due < e.2 then (k, due) :: e :: r else e :: enter k due r

def enqueueAt (q : Queue κ) (k : κ) (due : Nat) : Queue κ :=
  if q.handles = 0 then q else { q with mailbox := q.mailbox ++ [(k, due)] }

/-- Another producer, made from one that is still there. -/
def cloneHandle (q : Queue κ) : Queue κ :=
  if q.handles = 0 then q else { q with handles := q.handles + 1 }

def dropHandle (q : Queue κ) : Queue κ := { q with handles := q.handles - 1 }

variable [DecidableEq κ]

def contains (q : Queue κ) (k : κ) : Bool := q.index.contains k

def requeues (q : Queue κ) (k : κ) : Nat := ((q.failures.get? k).map (·.attempts)).getD 0

def forget (q : Queue κ) (k : κ) : Queue κ := { q with failures := q.failures.erase k }

def emit (now : Nat) (q : Queue κ) : List κ × Queue κ :=
  let due := (q.agenda.takeWhile fun e => e.2 ≤ now).map (·.1)
  (due, { q with
    agenda := q.agenda.dropWhile fun e => e.2 ≤ now
    index := due.foldl (fun i k => i.erase k) q.index })

variable [DecidableLT κ] [KeyOrder κ]

/-- Makes a key due at the given time, unless it is due earlier already. -/
def schedule (q : Queue κ) (k : κ) (due : Nat) : Queue κ :=
  match q.index.get? k with
  | some old =>
    if due ≤ old then
      { q with
        index := q.index.insert k due
        agenda := enter k due (q.agenda.filter fun e => e.1 ≠ k) }
    else q
  | none => { q with index := q.index.insert k due, agenda := enter k due q.agenda }

def freshBackoff (q : Queue κ) : Backoff :=
  { delays := .exponential q.grow (Delay.ofMillis q.base) (Delay.ofMillis q.max) }

def backoff (q : Queue κ) (k : κ) : Backoff := (q.failures.get? k).getD q.freshBackoff

/-- The delay after the next failure of a key, in nanoseconds. -/
def nextDelay (q : Queue κ) (k : κ) : Nat := ((q.backoff k).next?).getD (Delay.ofMillis q.max)

def retry (q : Queue κ) (now : Nat) (k : κ) : Queue κ :=
  ({ q with failures := q.failures.insert k (q.backoff k).advance }).schedule k
    (now + Delay.wholeMillis (q.nextDelay k))

def absorb (q : Queue κ) : Queue κ :=
  q.mailbox.foldl (fun q r => q.schedule r.1 r.2) { q with mailbox := [] }

/-- One poll: the first key that is due, if there is one. -/
def poll (now : Nat) (q : Queue κ) : Option κ × Queue κ :=
  let q := q.absorb
  match q.agenda with
  | e :: r =>
    if e.2 ≤ now then (some e.1, { q with agenda := r, index := q.index.erase e.1 }) else (none, q)
  | [] => (none, q)

def drain (now : Nat) (q : Queue κ) : List κ × Queue κ := q.absorb.emit now

def ended (q : Queue κ) : Bool := q.handles = 0 && q.mailbox.isEmpty && q.agenda.isEmpty

end Queue

end RolloutControl
