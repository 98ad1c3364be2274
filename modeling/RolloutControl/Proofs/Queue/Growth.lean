import Mathlib.Data.List.Range
import RolloutControl.Proofs.Queue.Course
import RolloutControl.Proofs.Queue.Pace
import RolloutControl.Settings.Basic
/-! How the delays of retries grow, over any course of a queue. They rise up to the maximum and stay there, unless the
base is beyond the maximum, which settings may ask for: then the first delay is too long, and the next one shorter. -/

namespace RolloutControl

/-- Delays of one key in their order: they double until the maximum is reached. -/
structure Delays.Steady (base max : Nat) (l : List Nat) : Prop where
  first : ∀ d, l.head? = some d → d = base
  rising : l.Pairwise (· ≤ ·)
  capped : ∀ d ∈ l, d ≤ max
  doubling : l.IsChain fun d e => e = min (2 * d) max

def Delays.upTo (base max n : Nat) : List Nat := (List.range n).map (exponentialDelay Delay.twice base max)

theorem Delays.steady_upTo_iff {base max n : Nat} : Steady base max (upTo base max n) ↔ base ≤ max ∨ n = 0 := by
  constructor
  · intro h
    cases n with
    | zero => exact .inr rfl
    | succ n => exact .inl (h.capped base (List.mem_map.2 ⟨0, List.mem_range.2 n.succ_pos, rfl⟩))
  · rintro (h | rfl)
    · constructor
      · cases n <;> simp [upTo, List.range_succ_eq_map, exponentialDelay]
      · exact List.pairwise_map.2 (List.pairwise_lt_range.imp fun hlt => exponentialDelay_mono h (Nat.le_of_lt hlt))
      · intro d hd
        obtain ⟨m, -, rfl⟩ := List.mem_map.1 hd
        rw [exponentialDelay_twice h]
        exact Nat.min_le_right _ _
      · rw [upTo, List.isChain_map, List.isChain_range]
        exact fun m _ => exponentialDelay_succ base max m
    · exact ⟨by simp [upTo], .nil, by simp [upTo], .nil⟩

namespace Queue

variable {κ : Type}

/-- What is told to those who have a key retried or forgotten. -/
inductive Notice (κ : Type)
  | delayed (k : κ) (delay : Nat)
  | forgotten (k : κ)

section Keys
variable [DecidableEq κ]

/-- The delays that a key was given since it was last forgotten, the last one first. -/
def given (k : κ) : List (Notice κ) → List Nat
  | [] => []
  | .delayed j delay :: l => if j = k then delay :: given k l else given k l
  | .forgotten j :: l => if j = k then [] else given k l

/-- How often the key has been retried since it was last forgotten, if it was so often before. -/
def Operation.recount (k : κ) (n : Nat) : Operation κ → Nat
  | .retry j => if j = k then n + 1 else n
  | .forget j => if j = k then 0 else n
  | _ => n

def retries (k : κ) (l : List (Operation κ)) : Nat := l.foldl (Operation.recount k) 0

def Operation.spares (k : κ) : Operation κ → Bool
  | .retry j | .forget j => j = k
  | _ => true

theorem Operation.recount_of_not_spares {k : κ} {x : Operation κ} (h : x.spares k = false) (n : Nat) :
    x.recount k n = n := by
  cases x with
  | retry j | forget j => exact if_neg (of_decide_eq_false h)
  | _ => rfl

theorem retries_filter_spares (k : κ) (l : List (Operation κ)) :
    retries k (l.filter (Operation.spares k)) = retries k l := by
  unfold retries
  generalize 0 = n
  induction l generalizing n with
  | nil => rfl
  | cons x l ih =>
    rw [List.filter_cons]
    split
    · exact ih _
    · next hx =>
      rw [List.foldl_cons, Operation.recount_of_not_spares (Bool.eq_false_iff.2 hx)]
      exact ih n

end Keys

/-- A course of a queue with the notices that it has given, the last one first. -/
structure Paced (κ : Type) [LT κ] where
  course : Course κ
  notices : List (Notice κ)

variable [LT κ]

/-- What the queue has to say about a key is the same. -/
structure SameFor [DecidableEq κ] (k : κ) (q q' : Queue κ) : Prop where
  due : q'.index.get? k = q.index.get? k
  requeues : q'.requeues k = q.requeues k
  delay : q'.nextDelay k = q.nextDelay k

namespace Paced

/-- A new queue that doubles delays without rounding. -/
def new (timing : LoopTiming) (now : Nat) : Paced κ where
  course := { now, queue := { Queue.new timing.base timing.max with grow := Delay.twice }, history := [] }
  notices := []

variable [DecidableEq κ]

/-- Each key was retried so many times since it was last forgotten, and was given the first delays of the sequence. -/
structure Counted (timing : LoopTiming) (p : Paced κ) (n : κ → Nat) : Prop where
  bounds : p.course.queue.base = timing.base ∧ p.course.queue.max = timing.max ∧ p.course.queue.grow = Delay.twice
  retried : ∀ k, p.course.queue.Retried k (n k)
  given : ∀ k, (given k p.notices).reverse =
    Delays.upTo (Delay.ofMillis timing.base) (Delay.ofMillis timing.max) (n k)

variable {timing : LoopTiming} {p p' : Paced κ} {n : κ → Nat}

theorem Counted.new (timing : LoopTiming) (now : Nat) : (Paced.new (κ := κ) timing now).Counted timing fun _ => 0 where
  bounds := ⟨rfl, rfl, rfl⟩
  retried _ := retried_of_get?_eq_none rfl
  given _ := rfl

theorem Counted.nextDelay_eq (h : p.Counted timing n) (k : κ) : p.course.queue.nextDelay k =
    Delays.exponentialDelay Delay.twice (Delay.ofMillis timing.base) (Delay.ofMillis timing.max) (n k) := by
  obtain ⟨hbase, hmax, hgrow⟩ := h.bounds
  rw [(h.retried k).nextDelay_eq, hbase, hmax, hgrow]

/-- Operations that nobody is told about do not count. -/
theorem Counted.of_pace (h : p.Counted timing n) (hpace : p'.course.queue.pace = p.course.queue.pace)
    (hnotices : p'.notices = p.notices) : p'.Counted timing n where
  bounds := by
    obtain ⟨hbase, hmax, hgrow⟩ := bounds_of_pace hpace
    rw [hbase, hmax, hgrow]
    exact h.bounds
  retried k := (h.retried k).congr hpace
  given := hnotices ▸ h.given

omit [DecidableEq κ] in
theorem pace_post (c : Course κ) (k : κ) (due : Nat) : (c.post k due).queue.pace = c.queue.pace := by
  unfold Course.post
  split
  · rfl
  · exact pace_enqueueAt c.queue k due

theorem Counted.sameFor {n' : κ → Nat} {k : κ} (h : p.Counted timing n) (h' : p'.Counted timing n') (hn : n' k = n k)
    (hdue : p'.course.queue.index.get? k = p.course.queue.index.get? k) :
    SameFor k p.course.queue p'.course.queue where
  due := hdue
  requeues := by rw [(h.retried k).requeues_eq, (h'.retried k).requeues_eq, hn]
  delay := by rw [h.nextDelay_eq, h'.nextDelay_eq, hn]

variable [DecidableLT κ] [KeyOrder κ]

def next (p : Paced κ) (x : Operation κ) : Paced κ where
  course := p.course.next x
  notices := match x with
    | .retry k => .delayed k (p.course.queue.nextDelay k) :: p.notices
    | .forget k => .forgotten k :: p.notices
    | _ => p.notices

def after (timing : LoopTiming) (now : Nat) (l : List (Operation κ)) : Paced κ := l.foldl next (new timing now)

theorem Counted.next_retry (h : p.Counted timing n) (j : κ) :
    (p.next (.retry j)).Counted timing fun k => if j = k then n k + 1 else n k where
  bounds := by
    obtain ⟨hbase, hmax, hgrow⟩ := bounds_retry p.course.queue p.course.now j
    simp only [Paced.next, Course.next, hbase, hmax, hgrow]
    exact h.bounds
  retried k := (h.retried k).retry p.course.now
  given k := by
    by_cases hj : j = k
    · subst hj
      simp only [Paced.next, Queue.given, if_true, List.reverse_cons, h.given, h.nextDelay_eq]
      simp [Delays.upTo, List.range_succ]
    · simp only [Paced.next, Queue.given, if_neg hj, h.given]

theorem Counted.next_forget (h : p.Counted timing n) (j : κ) :
    (p.next (.forget j)).Counted timing fun k => if j = k then 0 else n k where
  bounds := h.bounds
  retried k := (h.retried k).forget
  given k := by
    by_cases hj : j = k
    · simp [Paced.next, Queue.given, hj, Delays.upTo]
    · simp only [Paced.next, Queue.given, if_neg hj, h.given]

theorem Counted.next (h : p.Counted timing n) (x : Operation κ) :
    (p.next x).Counted timing fun k => x.recount k (n k) := by
  cases x with
  | retry j => exact h.next_retry j
  | forget j => exact h.next_forget j
  | enqueue k => exact h.of_pace (pace_post _ k _) rfl
  | enqueueAfter k millis => exact h.of_pace (pace_post _ k _) rfl
  | scheduleAfter k millis => exact h.of_pace (pace_schedule _ k _) rfl
  | advance millis => exact h.of_pace rfl rfl
  | cloneHandle => exact h.of_pace (pace_cloneHandle _) rfl
  | dropHandle => exact h.of_pace rfl rfl
  | poll => exact h.of_pace (pace_poll _ _) rfl
  | drain => exact h.of_pace (pace_drain _ _) rfl

theorem Counted.foldl (h : p.Counted timing n) (l : List (Operation κ)) :
    (l.foldl Paced.next p).Counted timing fun k => l.foldl (Operation.recount k) (n k) := by
  induction l generalizing p n with
  | nil => exact h
  | cons x l ih => exact ih (h.next x)

theorem counted_after (timing : LoopTiming) (now : Nat) (l : List (Operation κ)) :
    (after timing now l).Counted timing fun k => retries k l := (Counted.new timing now).foldl l

/-- In a queue that is made by these settings, the delays of a key rise up to the maximum exactly if the base is no more
than the maximum, or the key has not been retried since it was last forgotten. In any case retries are counted, and
other keys make no difference. -/
theorem steady_iff (s : Settings) (resync now : Nat) (l : List (Operation κ)) :
    let timing := s.loopTiming resync
    let p := after timing now l
    ∀ k, (Delays.Steady (Delay.ofMillis timing.base) (Delay.ofMillis timing.max) (given k p.notices).reverse ↔
        s.timing.backoffBaseMillis ≤ 1000 * s.timing.backoffMaxSeconds ∨ retries k l = 0) ∧
      (given k p.notices).length = retries k l ∧ p.course.queue.requeues k = retries k l ∧
      given k p.notices = given k (after timing now (l.filter (Operation.spares k))).notices ∧
      ∀ j, j ≠ k → SameFor k p.course.queue (p.course.queue.retry p.course.now j) ∧
        SameFor k p.course.queue (p.course.queue.forget j) := by
  intro timing p k
  have h : p.Counted timing fun k => retries k l := counted_after timing now l
  have hbounds : Delay.ofMillis timing.base ≤ Delay.ofMillis timing.max ↔
      s.timing.backoffBaseMillis ≤ 1000 * s.timing.backoffMaxSeconds := by
    change s.timing.backoffBaseMillis * Delay.perMilli ≤ s.timing.backoffMaxSeconds * 1000 * Delay.perMilli ↔ _
    rw [Nat.mul_le_mul_right_iff (by decide), Nat.mul_comm]
  have hlength : (given k p.notices).length = retries k l := by
    rw [← List.length_reverse, h.given, Delays.upTo, List.length_map, List.length_range]
  refine ⟨?_, hlength, (h.retried k).requeues_eq, ?_, fun j hj => ⟨?_, ?_⟩⟩
  · rw [h.given, Delays.steady_upTo_iff, hbounds]
  · have halone := (counted_after timing now (l.filter (Operation.spares k))).given k
    rw [retries_filter_spares, ← h.given] at halone
    exact List.reverse_injective halone.symm
  · refine h.sameFor (h.next_retry j) (if_neg hj) ?_
    exact (get?_schedule _ j k _).trans (if_neg (Ne.symm hj))
  · exact h.sameFor (h.next_forget j) (if_neg hj) rfl

def attempts : List (Operation String) := [.retry "a", .retry "b", .retry "a", .forget "b", .retry "a"]

theorem steady_iff_attempts :
    Delays.Steady (Delay.ofMillis 400) (Delay.ofMillis 1000)
      (given "a" (after (Settings.loopTiming { timing := { backoffBaseMillis := 400, backoffMaxSeconds := 1 } } 0) 0
        attempts).notices).reverse ∧
      (given "a" (after (Settings.loopTiming { timing := { backoffBaseMillis := 400, backoffMaxSeconds := 1 } } 0) 0
        attempts).notices).reverse = [Delay.ofMillis 400, Delay.ofMillis 800, Delay.ofMillis 1000] :=
  ⟨(steady_iff { timing := { backoffBaseMillis := 400, backoffMaxSeconds := 1 } } 0 0 attempts "a").1.2
    (.inl (by decide)), by decide +kernel⟩

def beyond : Settings := { timing := { backoffBaseMillis := 5000, backoffMaxSeconds := 1 } }

/-- Such settings are accepted. The first delay is too long, and the next one is shorter. -/
theorem first_delay_beyond_maximum : beyond.validate = .ok () ∧
    (given "key" (after (beyond.loopTiming 0) 0 [.retry "key", .retry "key"]).notices).reverse =
      [Delay.ofMillis 5000, Delay.ofMillis 1000] ∧
    ¬Delays.Steady (Delay.ofMillis 5000) (Delay.ofMillis 1000) [Delay.ofMillis 5000, Delay.ofMillis 1000] := by
  refine ⟨by decide +kernel, by decide +kernel, fun h => ?_⟩
  exact absurd (h.capped (Delay.ofMillis 5000) List.mem_cons_self) (by decide)

end Paced

end Queue

end RolloutControl
