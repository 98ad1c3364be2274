import RolloutControl.Proofs.Loop.Session
/-! What is left of a session once it is cancelled. A cycle that is running goes on until it ends, but nothing comes of
it, no other one starts, and the loop stops for good. -/

namespace RolloutControl

namespace Loop

variable {ε : Type}

def Move.windUp (phase : Phase) : Move ε → Phase
  | .arrive _ | .advance _ => phase
  | .run => if phase = .fresh then .idle else phase
  | .turn => if phase = .idle then .stopped else phase
  | .finish _ => if phase = .busy then .stopped else phase

theorem reach_of_stopped {l : Loop} (h : l.phase = .stopped) (now : Nat) (x : Arrival) :
    (l.reach now x).queue = l.queue := by
  cases x with
  | enqueue | enqueueAfter millis => exact congrArg Loop.queue (if_pos h)
  | trigger =>
    simp only [reach, trigger]
    split <;> rfl
  | watch filter e =>
    simp only [reach, watch, trigger]
    split
    · split <;> rfl
    · rfl
  | closeTriggers | cancel => rfl

namespace Session

variable {s t : Session ε}

/-- The session was cancelled in this state, and nothing has come of it since then. -/
structure Ceased (s t : Session ε) : Prop where
  cancelled : t.loop.cancelled = true
  starts : t.starts = s.starts
  ends : t.ends = s.ends
  reports : t.reports = s.reports
  queue : s.loop.queue.Received t.loop.queue

/-- What is done with a cancelled session counts for nothing, as long as it gets no further than to requests. -/
theorem Ceased.undisturbed {loop : Loop} (h : s.Ceased t) (hloop : t.loop.Undisturbed loop) :
    s.Ceased { t with loop } where
  cancelled := hloop.cancelled h.cancelled
  starts := h.starts
  ends := h.ends
  reports := h.reports
  queue := h.queue.trans hloop.queue

theorem turn_of_cancelled (h : t.loop.cancelled = true) :
    t.turn = if t.loop.phase = .idle then { t with loop := { t.loop with phase := .stopped } } else t := by
  split
  · next hidle =>
    have hturn : t.loop.turn t.now = .stop := if_pos h
    simp [Session.turn, step, hidle, hturn]
  · next hidle => simp only [Session.turn, step_of_not_idle hidle]

theorem Ceased.next (h : s.Ceased t) (x : Move ε) : s.Ceased (t.next x) := by
  cases x with
  | arrive x => exact h.undisturbed (undisturbed_reach t.loop t.now x)
  | advance millis => exact ⟨h.cancelled, h.starts, h.ends, h.reports, h.queue⟩
  | run =>
    simp only [Session.next]
    split
    · exact ⟨h.cancelled, h.starts, h.ends, h.reports, h.queue.trans (Queue.received_enqueueAt _ _ _)⟩
    · exact h
  | turn =>
    simp only [Session.next, turn_of_cancelled h.cancelled]
    split
    · exact ⟨h.cancelled, h.starts, h.ends, h.reports, h.queue⟩
    · exact h
  | finish outcome =>
    simp only [Session.next, finish_of_cancelled h.cancelled]
    split
    · exact ⟨h.cancelled, h.starts, h.ends, h.reports, h.queue⟩
    · exact h

theorem phase_next_of_cancelled (h : t.loop.cancelled = true) (x : Move ε) :
    (t.next x).loop.phase = x.windUp t.loop.phase := by
  cases x with
  | arrive x => exact (undisturbed_reach t.loop t.now x).phase
  | advance millis => rfl
  | run =>
    simp only [Session.next, Move.windUp]
    split <;> rfl
  | turn =>
    simp only [Session.next, turn_of_cancelled h, Move.windUp]
    split <;> rfl
  | finish outcome =>
    simp only [Session.next, finish_of_cancelled h, Move.windUp]
    split <;> rfl

theorem queue_finish_of_cancelled (h : t.loop.cancelled = true) (outcome : Except ε Action) :
    (t.next (.finish outcome)).loop.queue = t.loop.queue := by
  simp only [next, finish_of_cancelled h]
  split <;> rfl

/-- No session that has stopped does anything any more, and no request reaches its queue. -/
theorem next_of_stopped (h : t.loop.phase = .stopped) (x : Move ε) :
    (t.next x).loop.phase = .stopped ∧ (t.next x).loop.queue = t.loop.queue := by
  cases x with
  | arrive x => exact ⟨(undisturbed_reach t.loop t.now x).phase.trans h, reach_of_stopped h t.now x⟩
  | advance millis => exact ⟨h, rfl⟩
  | turn =>
    have hstep : t.loop.step t.now = none := step_of_not_idle (by simp [h]) t.now
    simp [Session.next, Session.turn, hstep, h]
  | run | finish outcome => simp [Session.next, h]

theorem foldl_of_stopped (h : t.loop.phase = .stopped) (l : List (Move ε)) :
    (l.foldl next t).loop.phase = .stopped ∧ (l.foldl next t).loop.queue = t.loop.queue := by
  refine List.foldlRecOn l (motive := fun s => s.loop.phase = .stopped ∧ s.loop.queue = t.loop.queue) next ⟨h, rfl⟩ ?_
  rintro s ⟨hphase, hqueue⟩ x -
  obtain ⟨hphase', hqueue'⟩ := next_of_stopped hphase x
  exact ⟨hphase', hqueue'.trans hqueue⟩

/-- What a cancelled session comes to after these moves. -/
structure WindsUp (s t : Session ε) (l : List (Move ε)) : Prop where
  /-- No cycle is started, and no error is reported. -/
  ceased : s.Ceased t
  /-- A cycle that is running goes on until it ends, and then the loop stops. Otherwise it stops with its next turn. -/
  phase : t.loop.phase = l.foldl Move.windUp s.loop.phase
  /-- The end of a cycle does not even send a request. -/
  unqueued : ∀ outcome, (t.next (.finish outcome)).loop.queue = t.loop.queue
  closed : t.loop.phase = .stopped → ∀ l' : List (Move ε),
    (l'.foldl next t).loop.phase = .stopped ∧ (l'.foldl next t).loop.queue = t.loop.queue

theorem Ceased.foldl (h : s.Ceased t) (l : List (Move ε)) :
    s.Ceased (l.foldl Session.next t) ∧ (l.foldl Session.next t).loop.phase = l.foldl Move.windUp t.loop.phase := by
  induction l generalizing t with
  | nil => exact ⟨h, rfl⟩
  | cons x l ih =>
    rw [List.foldl_cons, List.foldl_cons, ← phase_next_of_cancelled h.cancelled x]
    exact ih (h.next x)

/-- At whatever moment a session is cancelled. -/
theorem windsUp_after_cancel (grow : Nat → Nat) (timing : LoopTiming) (now : Nat) (earlier later : List (Move ε)) :
    (after grow timing now earlier).WindsUp (after grow timing now (earlier ++ .arrive .cancel :: later)) later := by
  have hsplit : after grow timing now (earlier ++ .arrive .cancel :: later) =
      later.foldl next ((after grow timing now earlier).next (.arrive .cancel)) := by
    rw [after, List.foldl_append, List.foldl_cons]
    rfl
  rw [hsplit]
  generalize after grow timing now earlier = s
  have hcancel : s.Ceased (s.next (.arrive .cancel)) := ⟨rfl, rfl, rfl, rfl, .refl _⟩
  obtain ⟨hceased, hphase⟩ := hcancel.foldl later
  exact ⟨hceased, hphase, queue_finish_of_cancelled hceased.cancelled, foldl_of_stopped⟩

end Session

end Loop

end RolloutControl
