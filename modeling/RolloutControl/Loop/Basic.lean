import RolloutControl.Cache.Basic
import RolloutControl.Queue.Basic
/-! The loop that runs a reconciler, one cycle at a time, whenever its one key is due. Events, periodic
resyncs and retries all make that key due. -/

namespace RolloutControl

/-- What a cycle that did not fail asks for. -/
inductive Action
  | awaitChange
  | requeueAfter (millis : Nat)
  | requeueRateLimited
deriving DecidableEq, Repr, Inhabited

namespace Action

def isRequeue (a : Action) : Bool := a ≠ .awaitChange

end Action

structure Ticker where
  period : Nat
  deadline : Nat
  positive : 0 < period

namespace Ticker

/-- Ticks that come no more than this late, in milliseconds, do not move those after them. -/
def tolerance : Nat := 5

/-- The timer after it has ticked. A tick that was missed is not made up for. -/
def tick (t : Ticker) (now : Nat) : Ticker :=
  { t with deadline := (if t.deadline + tolerance < now then now else t.deadline) + t.period }

end Ticker

inductive Phase
  | fresh | idle | busy | stopped
deriving DecidableEq, Repr

structure Loop where
  timing : LoopTiming
  queue : Queue String
  ticker : Option Ticker
  /-- Triggers that have arrived and are not read yet. -/
  triggers : Nat
  /-- Whether triggers can still arrive. -/
  listening : Bool
  cancelled : Bool
  phase : Phase

namespace Loop

/-- The one key, which stands for everything that is wanted. -/
def key : String := "key"

def new (timing : LoopTiming) : Loop :=
  { timing, queue := .new timing.base timing.max, ticker := none, triggers := 0, listening := true
    cancelled := false, phase := .fresh }

def enqueueAt (l : Loop) (due : Nat) : Loop := { l with queue := l.queue.enqueueAt key due }

/-- Requests reach a loop until it has stopped. -/
def request (l : Loop) (due : Nat) : Loop := if l.phase = .stopped then l else l.enqueueAt due

def trigger (l : Loop) : Loop := if l.listening then { l with triggers := l.triggers + 1 } else l

/-- A trigger for a watch event, unless it is about an object in a namespace of no interest. -/
def watch {α : Type} [ClusterObject α] (l : Loop) (filter : SpaceFilter) (e : WatchEvent α) : Loop :=
  if e.passes filter then l.trigger else l

def closeTriggers (l : Loop) : Loop := { l with listening := false }

def cancel (l : Loop) : Loop := { l with cancelled := true }

def ticker? (resync : Option Nat) (now : Nat) : Option Ticker :=
  resync.bind fun period =>
    if h : 0 < period then some ⟨period, now + period, h⟩ else none

/-- The loop begins to run, and its key is due at once. -/
def run (l : Loop) (now : Nat) : Loop :=
  { l.enqueueAt now with ticker := ticker? l.timing.resync now, phase := .idle }

/-- What an idle loop does next, in the order of preference. -/
inductive Turn
  | stop
  | trigger
  | tick (t : Ticker)
  | reconcile (q : Queue String)
  | wait (q : Queue String)

def turn (l : Loop) (now : Nat) : Turn :=
  if l.cancelled then .stop
  else if 0 < l.triggers then .trigger
  else
    match l.ticker.filter fun t => t.deadline ≤ now with
    | some t => .tick t
    | none =>
      match l.queue.poll now with
      | (some _, q) => .reconcile q
      | (none, q) => .wait q

/-- Takes one turn; `none` where nothing is left to do at this instant. -/
def step (l : Loop) (now : Nat) : Option Loop :=
  match l.phase with
  | .fresh | .busy | .stopped => none
  | .idle =>
    match l.turn now with
    | .stop => some { l with phase := .stopped }
    | .trigger => some ({ l with triggers := l.triggers - 1 }.enqueueAt now)
    | .tick t => some ({ l with ticker := some (t.tick now) }.enqueueAt now)
    | .reconcile q => some { l with queue := q, phase := .busy }
    | .wait _ => none

/-- A cycle ends. Once the loop is cancelled its outcome queues nothing. -/
def finish {ε : Type} (l : Loop) (now : Nat) (outcome : Except ε Action) : Loop :=
  if l.cancelled then { l with phase := .stopped }
  else
    let queue := match outcome with
      | .ok .awaitChange => l.queue.forget key
      | .ok (.requeueAfter d) => (l.queue.forget key).schedule key (now + d)
      | .ok .requeueRateLimited | .error _ => l.queue.retry now key
    { l with queue, phase := .idle }

def report? {ε : Type} (l : Loop) (outcome : Except ε Action) : Option ε :=
  match outcome with
  | .error e => if l.cancelled then none else some e
  | .ok _ => none

/-- When an idle loop has something to do next, if nothing arrives before. -/
def nextDue (l : Loop) : Option Nat :=
  let q := l.queue.absorb
  match l.ticker.map (·.deadline), q.agenda.head?.map (·.2) with
  | some a, some b => some (min a b)
  | some a, none => some a
  | none, b => b

end Loop

end RolloutControl
