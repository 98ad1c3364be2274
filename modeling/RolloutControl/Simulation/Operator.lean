import RolloutControl.Observe.Cycle
import RolloutControl.Simulation.Cluster
import RolloutControl.Workload.Cycle
/-! The operator at work on a cluster in memory: two loops that take turns, and a clock that moves only
when it is told to. -/

namespace RolloutControl.Simulation

abbrev Sleeping := Nat × Program (Except Error Action)

structure Worker where
  loop : Loop
  cycle : Program (Except Error Action)
  sleeping : Option Sleeping := none

namespace Worker

def proceed (w : Worker) (p : Program (Except Error Action)) (c : Cluster) : Worker × Cluster :=
  match p.runToSleep Cluster.answer c with
  | (.inl outcome, c) => ({ w with loop := w.loop.finish c.now outcome, sleeping := none }, c)
  | (.inr (millis, rest), c) => ({ w with sleeping := some (c.now + millis, rest) }, c)

def step (w : Worker) (c : Cluster) : Option (Worker × Cluster) :=
  match w.sleeping with
  | some (wakes, rest) => if wakes ≤ c.now then some (w.proceed rest c) else none
  | none =>
    (w.loop.step c.now).map fun l =>
      let w := { w with loop := l }
      if l.phase = .busy then w.proceed w.cycle c else (w, c)

def settle (fuel : Nat) (w : Worker) (c : Cluster) : Worker × Cluster :=
  match fuel with
  | 0 => (w, c)
  | fuel + 1 =>
    match w.step c with
    | some (w, c) => settle fuel w c
    | none => (w, c)

/-- Enough steps for whatever can happen at one instant: a cycle that asks for another one does so with
a delay. -/
def rest (w : Worker) (c : Cluster) : Worker × Cluster :=
  w.settle (w.loop.triggers + w.loop.queue.mailbox.length + 20) c

def nextInstant (w : Worker) : Option Nat :=
  match w.sleeping with
  | some (wakes, _) => some wakes
  | none => if w.loop.phase = .idle then w.loop.nextDue else none

def isStopped (w : Worker) : Bool := w.loop.phase = .stopped

end Worker

structure Workers where
  observer : Worker
  workload : Worker

structure Scenario where
  cluster : Cluster
  workers : Option Workers := none

namespace Scenario

/-- The order in which observers are asked when nothing is said about it. -/
def anyOrder : List Nat := List.range Observer.builtIn.length

def observation (s : Settings) : Program (Except Error Action) :=
  Observer.cycle Observer.builtIn s anyOrder

def rest (s : Scenario) : Scenario :=
  match s.workers with
  | none => s
  | some w =>
    let (observer, c) := w.observer.rest s.cluster
    let (workload, c) := w.workload.rest c
    { cluster := c, workers := some ⟨observer, workload⟩ }

def start (s : Scenario) : Except SettingsProblem Scenario :=
  let settings := s.cluster.settings
  match settings.validate with
  | .error p => .error p
  | .ok () =>
    let now := s.cluster.now
    let worker (timing : LoopTiming) (cycle : Program (Except Error Action)) : Worker :=
      { loop := (Loop.new timing).run now, cycle }
    let workers : Workers :=
      { observer := worker settings.observationTiming (observation settings)
        workload := worker settings.workloadTiming (Workload.cycle settings) }
    .ok { s with workers := some workers }.rest

def nextInstant (w : Workers) : Option Nat :=
  match w.observer.nextInstant, w.workload.nextInstant with
  | some a, some b => some (min a b)
  | some a, none => some a
  | none, b => b

def at' (s : Scenario) (now : Nat) : Scenario := { s with cluster := { s.cluster with now } }

/-- Moves the clock on, and stops at every instant at which something happens. -/
def advanceTo (s : Scenario) (target : Nat) : Scenario :=
  if _h : s.cluster.now < target then
    let due := (s.workers.bind nextInstant).getD target
    let next := max (s.cluster.now + 1) (min target due)
    advanceTo ((s.at' next).rest.at' next) target
  else s
termination_by target - s.cluster.now
decreasing_by
  show target - max _ _ < _
  omega

def advance (s : Scenario) (millis : Nat) : Scenario := s.advanceTo (s.cluster.now + millis)

def run {α : Type} (s : Scenario) : Program α → α × Scenario
  | .done a => (a, s)
  | .call (.sleep millis) next => (s.advance millis).run (next ())
  | .call c next =>
    let (answer, cluster) := Cluster.answer c s.cluster
    ({ s with cluster } : Scenario).run (next answer)

def tell (s : Scenario) (toWorkload : Bool) (change : Loop → Loop) : Scenario :=
  match s.workers with
  | none => s
  | some w =>
    let w : Workers :=
      if toWorkload then { w with workload := { w.workload with loop := change w.workload.loop } }
      else { w with observer := { w.observer with loop := change w.observer.loop } }
    { s with workers := some w }.rest

def stop (s : Scenario) : Scenario :=
  match s.workers with
  | none => s
  | some w =>
    let cancelled (w : Worker) : Worker := { w with loop := w.loop.cancel }
    { s with workers := some ⟨cancelled w.observer, cancelled w.workload⟩ }.rest

def isStopped (s : Scenario) : Bool :=
  s.workers.any fun w => w.observer.isStopped && w.workload.isStopped

end Scenario

end RolloutControl.Simulation
