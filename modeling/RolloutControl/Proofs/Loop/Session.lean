import RolloutControl.Proofs.Loop.Course
import RolloutControl.Proofs.Queue.Pace
/-! Sessions of a loop: it begins to run, takes its turns, is reached by whatever arrives from outside at any time, and
at some time it may be cancelled. Nothing that arrives moves what the queue has scheduled already. -/

namespace RolloutControl

namespace Queue

variable {κ : Type} [LT κ] {p q r : Queue κ}

/-- Nothing has happened to the queue, except that requests may have been sent to it. -/
def Received (q p : Queue κ) : Prop := p = { q with mailbox := p.mailbox }

theorem Received.refl (q : Queue κ) : q.Received q := rfl

theorem Received.trans (h : q.Received p) (h' : p.Received r) : q.Received r := by
  unfold Received at h h' ⊢
  rw [h', h]

theorem Received.index (h : q.Received p) : p.index = q.index := (congrArg Queue.index h :)

theorem Received.agenda (h : q.Received p) : p.agenda = q.agenda := (congrArg Queue.agenda h :)

theorem Received.pace (h : q.Received p) : p.pace = q.pace := (congrArg Queue.pace h :)

theorem received_enqueueAt (q : Queue κ) (k : κ) (due : Nat) : q.Received (q.enqueueAt k due) := by
  unfold enqueueAt
  split <;> rfl

end Queue

namespace Loop

/-- What comes to a loop from outside. -/
inductive Arrival : Type 1
  | enqueue
  | enqueueAfter (millis : Nat)
  | trigger
  | watch {α : Type} [ClusterObject α] (filter : SpaceFilter) (e : WatchEvent α)
  | closeTriggers
  | cancel

def reach (l : Loop) (now : Nat) : Arrival → Loop
  | .enqueue => l.request now
  | .enqueueAfter millis => l.request (now + millis)
  | .trigger => l.trigger
  | @Arrival.watch _ _ filter e => l.watch filter e
  | .closeTriggers => l.closeTriggers
  | .cancel => l.cancel

variable {l l' : Loop} {now : Nat}

/-- Whatever arrives, a loop goes on with what it is doing. -/
structure Undisturbed (l l' : Loop) : Prop where
  phase : l'.phase = l.phase
  queue : l.queue.Received l'.queue
  cancelled : l.cancelled = true → l'.cancelled = true

theorem Undisturbed.refl (l : Loop) : l.Undisturbed l := ⟨rfl, .refl _, id⟩

theorem undisturbed_enqueueAt (l : Loop) (due : Nat) : l.Undisturbed (l.enqueueAt due) :=
  ⟨rfl, Queue.received_enqueueAt _ _ _, id⟩

theorem undisturbed_request (l : Loop) (due : Nat) : l.Undisturbed (l.request due) := by
  unfold request
  split
  · exact .refl l
  · exact undisturbed_enqueueAt l due

theorem undisturbed_trigger (l : Loop) : l.Undisturbed l.trigger := by
  unfold trigger
  split
  · exact ⟨rfl, .refl _, id⟩
  · exact .refl l

theorem undisturbed_reach (l : Loop) (now : Nat) (x : Arrival) : l.Undisturbed (l.reach now x) := by
  cases x with
  | enqueue => exact undisturbed_request l now
  | enqueueAfter millis => exact undisturbed_request l (now + millis)
  | trigger => exact undisturbed_trigger l
  | watch filter e =>
    simp only [reach, watch]
    split
    · exact undisturbed_trigger l
    · exact .refl l
  | closeTriggers => exact ⟨rfl, .refl _, id⟩
  | cancel => exact ⟨rfl, .refl _, fun _ => rfl⟩

/-- A turn of an idle loop. It stops if it is cancelled. Otherwise it has its key requested, or starts a cycle. -/
theorem step_cases (h : l.step now = some l') : l.phase = .idle ∧
    ((l.cancelled = true ∧ l' = { l with phase := .stopped }) ∨
      (l.cancelled = false ∧ l.Undisturbed l') ∨
      (l.cancelled = false ∧ l' = { l with queue := (l.queue.poll now).2, phase := .busy })) := by
  by_cases hidle : l.phase = .idle
  · refine ⟨hidle, ?_⟩
    by_cases hcancelled : l.cancelled = true
    · have hturn : l.turn now = .stop := if_pos hcancelled
      simp only [step, hidle, hturn, Option.some.injEq] at h
      exact .inl ⟨hcancelled, h.symm⟩
    · refine .inr ?_
      rw [Bool.not_eq_true] at hcancelled
      rcases turn_cases hcancelled now with ⟨-, hturn⟩ | ⟨-, ⟨t, hturn⟩ | ⟨k, -, hturn⟩ | ⟨-, hturn⟩⟩
      · simp only [step, hidle, hturn, Option.some.injEq] at h
        subst h
        exact .inl ⟨hcancelled, hidle.symm, Queue.received_enqueueAt _ _ _, id⟩
      · simp only [step, hidle, hturn, Option.some.injEq] at h
        subst h
        exact .inl ⟨hcancelled, hidle.symm, Queue.received_enqueueAt _ _ _, id⟩
      · simp only [step, hidle, hturn, Option.some.injEq] at h
        exact .inr ⟨hcancelled, h.symm⟩
      · simp [step, hidle, hturn] at h
  · rw [step_of_not_idle hidle] at h
    cases h

/-- What happens to a loop or in it. A cycle may take any time, and end in any way. -/
inductive Move (ε : Type) : Type 1
  | arrive (x : Arrival)
  | advance (millis : Nat)
  | run
  | turn
  | finish (outcome : Except ε Action)

structure Ending (ε : Type) where
  time : Nat
  outcome : Except ε Action

namespace Ending

variable {ε : Type}

def backsOff (e : Ending ε) : Bool :=
  match e.outcome with
  | .error _ | .ok .requeueRateLimited => true
  | .ok .awaitChange | .ok (.requeueAfter _) => false

def error? (e : Ending ε) : Option ε :=
  match e.outcome with
  | .error error => some error
  | .ok _ => none

end Ending

/-- A loop with its clock, and with what can be seen of it, the last first. -/
structure Session (ε : Type) where
  now : Nat
  loop : Loop
  /-- When cycles were started. -/
  starts : List Nat
  /-- How cycles ended before the loop was cancelled. -/
  ends : List (Ending ε)
  reports : List ε

namespace Session

variable {ε : Type}

def new (grow : Nat → Nat) (timing : LoopTiming) (now : Nat) : Session ε where
  now := now
  loop := { Loop.new timing with queue := { Queue.new timing.base timing.max with grow } }
  starts := []
  ends := []
  reports := []

def turn (s : Session ε) : Session ε :=
  match s.loop.step s.now with
  | none => s
  | some loop => { s with loop, starts := if loop.phase = .busy then s.now :: s.starts else s.starts }

def finish (s : Session ε) (outcome : Except ε Action) : Session ε :=
  { s with
    loop := s.loop.finish s.now outcome
    ends := if s.loop.cancelled then s.ends else ⟨s.now, outcome⟩ :: s.ends
    reports := (s.loop.report? outcome).toList ++ s.reports }

theorem finish_of_cancelled {s : Session ε} (h : s.loop.cancelled = true) (outcome : Except ε Action) :
    s.finish outcome = { s with loop := { s.loop with phase := .stopped } } := by
  cases outcome <;> simp [Session.finish, Loop.finish, report?, h]

def next (s : Session ε) : Move ε → Session ε
  | .arrive x => { s with loop := s.loop.reach s.now x }
  | .advance millis => { s with now := s.now + millis }
  | .run => if s.loop.phase = .fresh then { s with loop := s.loop.run s.now } else s
  | .turn => s.turn
  | .finish outcome => if s.loop.phase = .busy then s.finish outcome else s

def after (grow : Nat → Nat) (timing : LoopTiming) (now : Nat) (l : List (Move ε)) : Session ε :=
  l.foldl next (new grow timing now)

end Session

end Loop

end RolloutControl
