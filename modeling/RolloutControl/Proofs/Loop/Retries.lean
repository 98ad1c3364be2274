import RolloutControl.Proofs.Loop.Session
/-! How the cycles of a session are retried. A cycle that fails, or that is not settled, is followed by another one
after a delay that doubles with every such cycle in a row, whatever arrives in the meantime. -/

namespace RolloutControl

namespace Queue

variable {κ : Type} [LT κ] {p q : Queue κ} {k : κ} {n : Nat}

section Keys
variable [DecidableEq κ]

/-- The key is waiting, and falls due no later than this. -/
def DueBy (q : Queue κ) (k : κ) (limit : Nat) : Prop :=
  ∃ due, q.index.get? k = some due ∧ (k, due) ∈ q.agenda ∧ due ≤ limit

theorem DueBy.received {limit : Nat} (h : q.DueBy k limit) (hp : q.Received p) : p.DueBy k limit := by
  obtain ⟨due, hdue, hmem, hle⟩ := h
  exact ⟨due, by rw [hp.index, hdue], by rwa [hp.agenda], hle⟩

theorem Consistent.congr (h : q.Consistent) (hindex : p.index = q.index) (hagenda : p.agenda = q.agenda) :
    p.Consistent where
  mem_iff j due := by rw [hagenda, hindex, h.mem_iff]
  distinct := hagenda ▸ h.distinct
  sorted := hagenda ▸ h.sorted

/-- If the base is no more than the maximum, the delay of a retry is doubled by each of those before it. -/
theorem Retried.wholeMillis_nextDelay (h : q.Retried k n) (hgrow : q.grow = Delay.twice) (hle : q.base ≤ q.max) :
    Delay.wholeMillis (q.nextDelay k) = min (q.base * 2 ^ n) q.max := by
  have hmillis : Delay.ofMillis q.base ≤ Delay.ofMillis q.max := Nat.mul_le_mul_right _ hle
  have hmin : min (Delay.ofMillis q.base * 2 ^ n) (Delay.ofMillis q.max) =
      Delay.ofMillis (min (q.base * 2 ^ n) q.max) := by
    unfold Delay.ofMillis
    rw [Nat.mul_right_comm, Nat.mul_min_mul_right]
  rw [h.nextDelay_eq, hgrow, Delays.exponentialDelay_twice hmillis, hmin, Delay.wholeMillis_ofMillis]

end Keys

variable [DecidableEq κ] [DecidableLT κ] [KeyOrder κ]

theorem Consistent.dueBy_schedule (h : q.Consistent) (k : κ) (due : Nat) : (q.schedule k due).DueBy k due := by
  have hget := get?_schedule q k k due
  rw [if_pos rfl] at hget
  refine ⟨_, hget, ((h.schedule k due).mem_iff k _).2 hget, ?_⟩
  cases q.index.get? k with
  | none => exact Nat.le_refl due
  | some old => exact Nat.min_le_left due old

theorem Consistent.retry (h : q.Consistent) (now : Nat) (k : κ) :
    (q.retry now k).Consistent ∧ (q.retry now k).DueBy k (now + Delay.wholeMillis (q.nextDelay k)) := by
  have hfailed : Consistent { q with failures := q.failures.insert k (q.backoff k).advance } := h.congr rfl rfl
  exact ⟨hfailed.schedule k _, hfailed.dueBy_schedule k _⟩

theorem Consistent.poll (h : q.Consistent) (now : Nat) : (q.poll now).2.Consistent := by
  unfold Queue.poll
  dsimp only
  split
  · next e r hagenda =>
    split
    · have hsplit : q.absorb.agenda = [e] ++ r := hagenda
      exact h.absorb.release hsplit
    · exact h.absorb
  · exact h.absorb

end Queue

namespace Loop

variable {ε : Type}

/-- How many of the last cycles in a row backed off. -/
def streak : List (Ending ε) → Nat
  | [] => 0
  | e :: l => if e.backsOff then streak l + 1 else 0

/-- What the queue holds after a cycle that ended so, if so many cycles before it backed off in a row. -/
def Ending.Awaited (timing : LoopTiming) (e : Ending ε) (n : Nat) (q : Queue String) : Prop :=
  match e.outcome with
  | .error _ | .ok .requeueRateLimited => q.DueBy key (e.time + min (timing.base * 2 ^ n) timing.max)
  | .ok (.requeueAfter millis) => q.DueBy key (e.time + millis)
  | .ok .awaitChange => True

theorem Ending.Awaited.received {timing : LoopTiming} {e : Ending ε} {n : Nat} {p q : Queue String}
    (h : e.Awaited timing n q) (hp : q.Received p) : e.Awaited timing n p := by
  obtain ⟨time, outcome⟩ := e
  cases outcome with
  | error error => exact Queue.DueBy.received h hp
  | ok action =>
    cases action with
    | awaitChange => trivial
    | requeueAfter millis => exact Queue.DueBy.received h hp
    | requeueRateLimited => exact Queue.DueBy.received h hp

theorem streak_cons_of_backsOff {e : Ending ε} (h : e.backsOff = true) (l : List (Ending ε)) :
    streak (e :: l) = streak l + 1 :=
  if_pos h

theorem Ending.awaited_of_backsOff {timing : LoopTiming} {e : Ending ε} {n : Nat} {q : Queue String}
    (h : e.backsOff = true) (hdue : q.DueBy key (e.time + min (timing.base * 2 ^ n) timing.max)) :
    e.Awaited timing n q := by
  obtain ⟨time, outcome⟩ := e
  cases outcome with
  | error error => exact hdue
  | ok action =>
    cases action with
    | awaitChange => trivial
    | requeueAfter millis => exact absurd h Bool.false_ne_true
    | requeueRateLimited => exact hdue

namespace Session

variable {timing : LoopTiming} {s t : Session ε}

/-- No retry of a session is dropped, and all of them are counted. -/
structure Retries (timing : LoopTiming) (s : Session ε) : Prop where
  /-- Until the next cycle starts, the key is waiting for as long as the last one wants it to. -/
  awaited : s.loop.phase = .idle → ∀ e l, s.ends = e :: l → e.Awaited timing (streak l) s.loop.queue
  counted : s.loop.queue.requeues key = streak s.ends
  reported : s.reports = s.ends.filterMap Ending.error?
  /-- If the loop is not cancelled, a cycle that ends is the last one from then on. -/
  recorded : s.loop.phase = .busy → s.loop.cancelled = false → ∀ outcome,
    (s.next (.finish outcome)).loop.phase = .idle ∧ (s.next (.finish outcome)).ends = ⟨s.now, outcome⟩ :: s.ends

structure Tallied (timing : LoopTiming) (s : Session ε) : Prop where
  bounds : s.loop.queue.base = timing.base ∧ s.loop.queue.max = timing.max ∧ s.loop.queue.grow = Delay.twice
  consistent : s.loop.queue.Consistent
  retried : s.loop.queue.Retried key (streak s.ends)
  fresh : s.loop.phase = .fresh → s.ends = []
  awaited : s.loop.phase = .idle → ∀ e l, s.ends = e :: l → e.Awaited timing (streak l) s.loop.queue
  reported : s.reports = s.ends.filterMap Ending.error?

theorem Tallied.new (timing : LoopTiming) (now : Nat) : (new (ε := ε) Delay.twice timing now).Tallied timing where
  bounds := ⟨rfl, rfl, rfl⟩
  consistent := (Queue.Consistent.new timing.base timing.max).congr rfl rfl
  retried := Queue.retried_of_get?_eq_none rfl
  fresh _ := rfl
  awaited h := Phase.noConfusion h
  reported := rfl

theorem Tallied.of_pace (h : s.Tallied timing) (hpace : t.loop.queue.pace = s.loop.queue.pace)
    (hconsistent : t.loop.queue.Consistent) (hends : t.ends = s.ends) (hreports : t.reports = s.reports)
    (hfresh : t.loop.phase = .fresh → s.loop.phase = .fresh)
    (hawaited : t.loop.phase = .idle → ∀ e l, s.ends = e :: l → e.Awaited timing (streak l) t.loop.queue) :
    t.Tallied timing where
  bounds := by
    obtain ⟨hbase, hmax, hgrow⟩ := Queue.bounds_of_pace hpace
    rw [hbase, hmax, hgrow]
    exact h.bounds
  consistent := hconsistent
  retried := by
    rw [hends]
    exact h.retried.congr hpace
  fresh hphase := hends.trans (h.fresh (hfresh hphase))
  awaited hphase e l hl := hawaited hphase e l (hends.symm.trans hl)
  reported := by rw [hreports, hends, h.reported]

theorem Tallied.undisturbed (h : s.Tallied timing) (hloop : s.loop.Undisturbed t.loop) (hends : t.ends = s.ends)
    (hreports : t.reports = s.reports) : t.Tallied timing := by
  refine h.of_pace hloop.queue.pace (h.consistent.congr hloop.queue.index hloop.queue.agenda) hends hreports ?_ ?_
  · rw [hloop.phase]
    exact id
  · intro hidle e l hl
    exact (h.awaited (hloop.phase ▸ hidle) e l hl).received hloop.queue

theorem Tallied.run (h : s.Tallied timing) (hfresh : s.loop.phase = .fresh) :
    Tallied timing { s with loop := s.loop.run s.now } := by
  have hreceived := Queue.received_enqueueAt s.loop.queue key s.now
  refine h.of_pace hreceived.pace (h.consistent.congr hreceived.index hreceived.agenda) rfl rfl Phase.noConfusion ?_
  intro _ e l hl
  rw [h.fresh hfresh] at hl
  exact nomatch hl

theorem Tallied.turn (h : s.Tallied timing) : s.turn.Tallied timing := by
  unfold Session.turn
  split
  · exact h
  · next loop hstep =>
    rcases (step_cases hstep).2 with ⟨-, rfl⟩ | ⟨-, hloop⟩ | ⟨-, rfl⟩
    · exact h.of_pace rfl h.consistent rfl rfl Phase.noConfusion Phase.noConfusion
    · exact h.undisturbed hloop rfl rfl
    · exact h.of_pace (Queue.pace_poll _ _) (h.consistent.poll _) rfl rfl Phase.noConfusion Phase.noConfusion

/-- A cycle ends before the loop is cancelled. -/
theorem Tallied.ended {q : Queue String} {outcome : Except ε Action} (h : s.Tallied timing)
    (hloop : t.loop = { s.loop with queue := q, phase := .idle }) (hends : t.ends = ⟨s.now, outcome⟩ :: s.ends)
    (hreports : t.reports = (Ending.error? ⟨s.now, outcome⟩).toList ++ s.reports)
    (hbounds : q.base = s.loop.queue.base ∧ q.max = s.loop.queue.max ∧ q.grow = s.loop.queue.grow)
    (hconsistent : q.Consistent) (hretried : q.Retried key (streak (⟨s.now, outcome⟩ :: s.ends)))
    (hawaited : Ending.Awaited timing ⟨s.now, outcome⟩ (streak s.ends) q) : t.Tallied timing where
  bounds := by
    obtain ⟨hbase, hmax, hgrow⟩ := hbounds
    rw [hloop, hbase, hmax, hgrow]
    exact h.bounds
  consistent := by
    rw [hloop]
    exact hconsistent
  retried := by
    rw [hloop, hends]
    exact hretried
  fresh hphase := by
    rw [hloop] at hphase
    exact Phase.noConfusion hphase
  awaited _ e l hl := by
    obtain ⟨rfl, rfl⟩ := List.cons.inj (hends.symm.trans hl)
    rw [hloop]
    exact hawaited
  reported := by
    rw [hreports, hends, h.reported, List.filterMap_cons]
    cases Ending.error? ⟨s.now, outcome⟩ <;> rfl

/-- A cycle that backs off is retried after the next delay. -/
theorem Tallied.dueBy_retry (h : s.Tallied timing) (hle : timing.base ≤ timing.max) :
    (s.loop.queue.retry s.now key).DueBy key (s.now + min (timing.base * 2 ^ streak s.ends) timing.max) := by
  obtain ⟨hbase, hmax, hgrow⟩ := h.bounds
  have hdelay := h.retried.wholeMillis_nextDelay hgrow (by rwa [hbase, hmax])
  rw [hbase, hmax] at hdelay
  exact hdelay ▸ (h.consistent.retry s.now key).2

theorem Tallied.backedOff {outcome : Except ε Action} (h : s.Tallied timing) (hle : timing.base ≤ timing.max)
    (hbacksOff : Ending.backsOff ⟨s.now, outcome⟩ = true)
    (hloop : t.loop = { s.loop with queue := s.loop.queue.retry s.now key, phase := .idle })
    (hends : t.ends = ⟨s.now, outcome⟩ :: s.ends)
    (hreports : t.reports = (Ending.error? ⟨s.now, outcome⟩).toList ++ s.reports) : t.Tallied timing := by
  refine h.ended hloop hends hreports (Queue.bounds_retry _ _ _) (h.consistent.retry s.now key).1 ?_ ?_
  · have hretried := h.retried.retry (j := key) s.now
    rwa [if_pos rfl, ← streak_cons_of_backsOff hbacksOff] at hretried
  · exact Ending.awaited_of_backsOff hbacksOff (h.dueBy_retry hle)

theorem Tallied.finish (h : s.Tallied timing) (hle : timing.base ≤ timing.max) (outcome : Except ε Action) :
    (s.finish outcome).Tallied timing := by
  by_cases hcancelled : s.loop.cancelled = true
  · rw [finish_of_cancelled hcancelled]
    exact h.of_pace rfl h.consistent rfl rfl Phase.noConfusion Phase.noConfusion
  · have hends : (s.finish outcome).ends = ⟨s.now, outcome⟩ :: s.ends := if_neg hcancelled
    have hforgot : (s.loop.queue.forget key).Retried key 0 := by
      have hretried := h.retried.forget (j := key)
      rwa [if_pos rfl] at hretried
    have hconsistent : (s.loop.queue.forget key).Consistent := h.consistent.congr rfl rfl
    cases outcome with
    | error e =>
      have hreports : (s.finish (.error e)).reports = e :: s.reports := by simp [Session.finish, report?, hcancelled]
      exact h.backedOff hle rfl (if_neg hcancelled) hends hreports
    | ok action =>
      have hreports : (s.finish (.ok action)).reports = s.reports := rfl
      cases action with
      | awaitChange =>
        exact h.ended (if_neg hcancelled) hends hreports ⟨rfl, rfl, rfl⟩ hconsistent hforgot trivial
      | requeueAfter millis =>
        have hpace := Queue.pace_schedule (s.loop.queue.forget key) key (s.now + millis)
        have hbounds := Queue.bounds_of_pace hpace
        exact h.ended (if_neg hcancelled) hends hreports hbounds (hconsistent.schedule key _) (hforgot.congr hpace)
          (hconsistent.dueBy_schedule key _)
      | requeueRateLimited => exact h.backedOff hle rfl (if_neg hcancelled) hends hreports

theorem Tallied.next (h : s.Tallied timing) (hle : timing.base ≤ timing.max) (x : Move ε) :
    (s.next x).Tallied timing := by
  cases x with
  | arrive x => exact h.undisturbed (undisturbed_reach s.loop s.now x) rfl rfl
  | advance millis => exact h.undisturbed (.refl _) rfl rfl
  | run =>
    simp only [Session.next]
    split
    · next hfresh => exact h.run hfresh
    · exact h
  | turn => exact h.turn
  | finish outcome =>
    simp only [Session.next]
    split
    · exact h.finish hle outcome
    · exact h

theorem tallied_after (hle : timing.base ≤ timing.max) (now : Nat) (l : List (Move ε)) :
    (after Delay.twice timing now l).Tallied timing :=
  List.foldlRecOn l (motive := Tallied timing) Session.next (.new timing now) fun _ h x _ => h.next hle x

/-- With delays that are doubled exactly, whatever happens to a session. -/
theorem retries_after (hle : timing.base ≤ timing.max) (now : Nat) (l : List (Move ε)) :
    (after Delay.twice timing now l).Retries timing := by
  have h := tallied_after hle now l
  generalize after Delay.twice timing now l = s at h ⊢
  refine ⟨h.awaited, h.retried.requeues_eq, h.reported, fun hbusy hrunning outcome => ?_⟩
  have hnext : s.next (.finish outcome) = s.finish outcome := if_pos hbusy
  rw [hnext]
  simp [Session.finish, Loop.finish, hrunning]

/-- Three cycles in a row back off. A trigger starts the last one before its time, and it counts as well. -/
def refusals : List (Move String) :=
  [.run, .turn, .advance 1, .finish (.error "refused"), .advance 5, .turn, .finish (.ok .requeueRateLimited),
    .arrive .trigger, .turn, .turn, .finish (.error "denied")]

theorem retries_after_refusals :
    (after Delay.twice { base := 5, max := 15 } 0 refusals).Retries { base := 5, max := 15 } ∧
      (after Delay.twice { base := 5, max := 15 } 0 refusals).starts = [6, 6, 0] ∧
      (after Delay.twice { base := 5, max := 15 } 0 refusals).loop.queue.agenda = [(key, 21)] ∧
      (after Delay.twice { base := 5, max := 15 } 0 refusals).reports = ["denied", "refused"] :=
  ⟨retries_after (by decide) 0 refusals, rfl, rfl, rfl⟩

end Session

end Loop

end RolloutControl
