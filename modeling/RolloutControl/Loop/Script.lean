import RolloutControl.Loop.Basic
/-! A loop over a script: cycles with given outcomes that take given times, on a clock that moves only
when it is told to. -/

namespace RolloutControl

structure ScriptedCycle where
  outcome : Except String Action
  /-- How long the cycle sleeps, if it sleeps at all. -/
  takes : Option Nat

inductive LoopNote
  | started (at' : Nat)
  | ended (at' : Nat)
  | reported (error : String) (at' : Nat)
deriving DecidableEq, Repr

structure ScriptedLoop where
  now : Nat
  loop : Loop
  script : List ScriptedCycle
  /-- The cycle that is running, and when it ends. -/
  running : Option (Nat × Except String Action)
  notes : List LoopNote

namespace ScriptedLoop

def new (timing : LoopTiming) (script : List ScriptedCycle) : ScriptedLoop :=
  { now := 0, loop := .new timing, script, running := none, notes := [] }

def note (s : ScriptedLoop) (n : LoopNote) : ScriptedLoop := { s with notes := s.notes ++ [n] }

def finish (s : ScriptedLoop) (outcome : Except String Action) : ScriptedLoop :=
  let s := match s.loop.report? outcome with
    | some e => s.note (.reported e s.now)
    | none => s
  { s with loop := s.loop.finish s.now outcome, running := none }

def begin (s : ScriptedLoop) : ScriptedLoop :=
  let s := s.note (.started s.now)
  match s.script with
  | [] => s.finish (.ok .awaitChange)
  | c :: r =>
    let s := { s with script := r }
    match c.takes with
    | none => s.finish c.outcome
    | some millis => { s with running := some (s.now + millis, c.outcome) }

def step (s : ScriptedLoop) : Option ScriptedLoop :=
  match s.running with
  | some (ends, outcome) =>
    if ends ≤ s.now then some ((s.note (.ended s.now)).finish outcome) else none
  | none =>
    (s.loop.step s.now).map fun l =>
      if l.phase = .busy then { s with loop := l }.begin else { s with loop := l }

def settle (fuel : Nat) (s : ScriptedLoop) : ScriptedLoop :=
  match fuel with
  | 0 => s
  | fuel + 1 =>
    match s.step with
    | some t => settle fuel t
    | none => s

/-- Enough steps for whatever can happen at one instant: the script is finite, and beyond its end no
cycle asks for another one. -/
def budget (s : ScriptedLoop) : Nat :=
  2 * s.script.length + s.loop.triggers + s.loop.queue.mailbox.length + 20

def rest (s : ScriptedLoop) : ScriptedLoop := s.settle s.budget

def nextInstant (s : ScriptedLoop) : Option Nat :=
  match s.running with
  | some (ends, _) => some ends
  | none => if s.loop.phase = .idle then s.loop.nextDue else none

/-- Moves the clock on, and stops at every instant at which something happens. -/
def advanceTo (s : ScriptedLoop) (target : Nat) : ScriptedLoop :=
  if _h : s.now < target then
    let next := max (s.now + 1) (min target (s.nextInstant.getD target))
    advanceTo { ({ s with now := next }.rest) with now := next } target
  else s
termination_by target - s.now
decreasing_by
  show target - max _ _ < _
  omega

def advance (s : ScriptedLoop) (millis : Nat) : ScriptedLoop := s.advanceTo (s.now + millis)

end ScriptedLoop

end RolloutControl
