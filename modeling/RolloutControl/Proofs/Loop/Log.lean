import RolloutControl.Loop.Basic
import RolloutControl.Proofs.Queue.History
/-! The log of a loop: whatever may make it reconcile, and every cycle that it starts. What has come since the last
start is what the queue has not handed out yet. -/

namespace RolloutControl

namespace Loop

/-- What is recorded of a loop. -/
inductive Happening
  /-- Its key is requested for now. -/
  | enqueued
  | enqueuedAfter (millis : Nat)
  /-- A trigger arrives, or a watch event that concerns the loop. -/
  | triggered
  /-- A watch event arrives that does not concern the loop. -/
  | overlooked
  | began
  /-- A trigger is read. -/
  | read
  | ticked
  /-- A cycle ends and asks for another one. -/
  | requeued (due : Nat)
  | settled
  | started
deriving DecidableEq

structure Entry where
  time : Nat
  what : Happening

namespace Entry

def due? (e : Entry) : Option Nat :=
  match e.what with
  | .enqueued | .began | .read | .ticked => some e.time
  | .enqueuedAfter millis => some (e.time + millis)
  | .requeued due => some due
  | .triggered | .overlooked | .settled | .started => none

/-- What the entry means to the queue. -/
def toQueue (e : Entry) : List (Queue.Entry String) :=
  match e.what with
  | .enqueued | .began | .read | .ticked => [.posted key e.time]
  | .enqueuedAfter millis => [.posted key (e.time + millis)]
  | .requeued due => [.scheduled key due]
  | .started => [.emitted key, .absorbed]
  | .triggered | .overlooked | .settled => []

/-- Whether a loop may start a cycle for this. -/
def IsCause (e : Entry) : Prop :=
  match e.what with
  | .enqueued | .enqueuedAfter _ | .triggered | .began | .ticked | .requeued _ => True
  | .read | .overlooked | .settled | .started => False

/-- Whether the loop has to start a cycle for this by now. -/
def Calls (e : Entry) (now : Nat) : Prop :=
  match e.what with
  | .enqueued | .triggered | .began | .read | .ticked => True
  | .enqueuedAfter millis => e.time + millis ≤ now
  | .requeued due => due ≤ now
  | .overlooked | .settled | .started => False

theorem triggered_or_due_of_calls {e : Entry} {now : Nat} (h : e.Calls now) (htime : e.time ≤ now) :
    e.what = .triggered ∨ ∃ due, e.due? = some due ∧ due ≤ now := by
  obtain ⟨time, what⟩ := e
  cases what with
  | triggered => exact .inl rfl
  | enqueued | began | read | ticked => exact .inr ⟨time, rfl, htime⟩
  | enqueuedAfter millis => exact .inr ⟨time + millis, rfl, h⟩
  | requeued due => exact .inr ⟨due, rfl, h⟩
  | overlooked | settled | started => exact h.elim

theorem isCause_or_read_of_due {e : Entry} {due : Nat} (h : e.due? = some due) : e.IsCause ∨ e.what = .read := by
  obtain ⟨time, what⟩ := e
  cases what with
  | read => exact .inr rfl
  | enqueued | enqueuedAfter | began | ticked | requeued => exact .inl trivial
  | triggered | overlooked | settled | started => exact nomatch h

end Entry

/-- What has happened since the last start, the last entry first. -/
def since (l : List Entry) : List Entry := l.takeWhile fun e => e.what ≠ .started

theorem since_cons (e : Entry) (l : List Entry) : since (e :: l) = if e.what = .started then [] else e :: since l := by
  by_cases h : e.what = .started <;> simp [since, h]

/-- What no start has followed has come since the last one. -/
theorem mem_since {newer older : List Entry} {e : Entry} (h : ∀ s ∈ newer, s.what ≠ .started) (he : e.what ≠ .started) :
    e ∈ since (newer ++ e :: older) := by
  induction newer with
  | nil => simp [since, he]
  | cons s newer ih =>
    obtain ⟨hs, hnewer⟩ := List.forall_mem_cons.1 h
    rw [List.cons_append, since_cons, if_neg hs]
    exact List.mem_cons_of_mem s (ih hnewer)

/-- Every start has a cause that has come since the start before. -/
def Caused (l : List Entry) : Prop :=
  ∀ newer s older, l = newer ++ s :: older → s.what = .started → ∃ e ∈ since older, e.IsCause

theorem Caused.cons {l : List Entry} {e : Entry} (h : Caused l)
    (he : e.what = .started → ∃ d ∈ since l, d.IsCause) : Caused (e :: l) := by
  intro newer s older hl hs
  rcases List.cons_eq_append_iff.1 hl with ⟨-, hl⟩ | ⟨newer, -, hl⟩
  · obtain ⟨rfl, rfl⟩ := List.cons.inj hl
    exact he hs
  · exact h newer s older hl hs

def queueHistory (l : List Entry) : List (Queue.Entry String) := l.flatMap Entry.toQueue

theorem mem_wanted {l : List Entry} {due : Nat} :
    due ∈ Queue.wanted key (queueHistory l) ↔ ∃ e ∈ since l, e.due? = some due := by
  induction l with
  | nil => simp [queueHistory, since, Queue.wanted]
  | cons e l ih =>
    obtain ⟨time, what⟩ := e
    have hcons : queueHistory (⟨time, what⟩ :: l) = Entry.toQueue ⟨time, what⟩ ++ queueHistory l := rfl
    cases what <;> simp [hcons, since, Entry.toQueue, Entry.due?, Queue.wanted, ih, eq_comm]

theorem wanted_of_ne {k : String} (h : k ≠ key) (l : List Entry) : Queue.wanted k (queueHistory l) = [] := by
  induction l with
  | nil => rfl
  | cons e l ih =>
    obtain ⟨time, what⟩ := e
    have hcons : queueHistory (⟨time, what⟩ :: l) = Entry.toQueue ⟨time, what⟩ ++ queueHistory l := rfl
    cases what <;> simp [hcons, Entry.toQueue, Queue.wanted, Ne.symm h, ih]

end Loop

end RolloutControl
