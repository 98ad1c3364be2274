import RolloutControl.Proofs.Loop.Session
/-! The timer of a loop. Its ticks come no faster than once per period, whatever else keeps the loop busy, and a loop
that is left alone starts a cycle exactly once per period. -/

namespace RolloutControl

theorem length_filter_le_of_getElem? {α : Type} {l : List α} {wanted : α → Bool} {n : Nat}
    (h : ∀ k a, l[k]? = some a → wanted a = true → k < n) : (l.filter wanted).length ≤ n := by
  have hdrop : (l.drop n).filter wanted = [] := by
    refine List.filter_eq_nil_iff.2 fun a ha hwanted => ?_
    obtain ⟨k, hk⟩ := List.mem_iff_getElem?.1 ha
    rw [List.getElem?_drop] at hk
    have hlt := h (n + k) a hk hwanted
    omega
  calc (l.filter wanted).length
      = ((l.take n).filter wanted).length := by
        rw [← List.take_append_drop n l, List.filter_append, hdrop, List.append_nil, List.take_append_drop]
    _ ≤ (l.take n).length := List.length_filter_le _ _
    _ ≤ n := List.length_take_le n l

theorem Queue.poll_of_single {κ : Type} [LT κ] [DecidableEq κ] [DecidableLT κ] [KeyOrder κ] {q : Queue κ} {k : κ}
    {due now : Nat} (hindex : q.index = ∅) (hagenda : q.agenda = []) (hmailbox : q.mailbox = [(k, due)])
    (hdue : due ≤ now) : q.poll now = (some k, { q with mailbox := [] }) := by
  have hrest : ((∅ : Dict κ Nat).insert k due).erase k = ∅ := by
    ext1 j
    rw [Dict.get?_erase, Dict.get?_insert]
    split <;> rfl
  simp [poll, absorb, schedule, enter, hindex, hagenda, hmailbox, hdue, hrest]

theorem Queue.poll_of_empty {κ : Type} [LT κ] [DecidableEq κ] [DecidableLT κ] [KeyOrder κ] {q : Queue κ}
    (hagenda : q.agenda = []) (hmailbox : q.mailbox = []) (now : Nat) : q.poll now = (none, q) := by
  cases q
  simp_all [poll, absorb]

theorem Ticker.deadline_add_le (t : Ticker) (now : Nat) : t.deadline + t.period ≤ (t.tick now).deadline := by
  simp only [Ticker.tick]
  split <;> omega

/-- A tick that comes in time leaves the timer on its beat. -/
theorem Ticker.deadline_tick (t : Ticker) {now : Nat} (h : now ≤ t.deadline) : (t.tick now).deadline = t.deadline + t.period := by
  simp only [Ticker.tick]
  split <;> omega

namespace Loop

variable {l : Loop} {now : Nat}

theorem timer_reach (l : Loop) (now : Nat) (x : Arrival) :
    (l.reach now x).timing = l.timing ∧ (l.reach now x).ticker = l.ticker := by
  cases x with
  | enqueue | enqueueAfter millis =>
    simp only [reach, request, enqueueAt]
    split <;> exact ⟨rfl, rfl⟩
  | trigger =>
    simp only [reach, trigger]
    split <;> exact ⟨rfl, rfl⟩
  | watch filter e =>
    simp only [reach, watch, trigger]
    split
    · split <;> exact ⟨rfl, rfl⟩
    · exact ⟨rfl, rfl⟩
  | closeTriggers | cancel => exact ⟨rfl, rfl⟩

theorem timer_finish {ε : Type} (l : Loop) (now : Nat) (outcome : Except ε Action) :
    (l.finish now outcome).timing = l.timing ∧ (l.finish now outcome).ticker = l.ticker := by
  unfold finish
  split <;> exact ⟨rfl, rfl⟩

theorem timing_step {l' : Loop} (h : l.step now = some l') : l'.timing = l.timing := by
  have hidle := (step_cases h).1
  unfold step at h
  rw [hidle] at h
  dsimp only at h
  split at h <;> cases h <;> rfl

theorem ticker_of_turn {t : Ticker} (h : l.turn now = .tick t) : l.ticker = some t ∧ t.deadline ≤ now := by
  unfold turn at h
  split at h
  · cases h
  · split at h
    · cases h
    · split at h
      · next t' hticker =>
        cases h
        obtain ⟨hsome, hdue⟩ := Option.filter_eq_some_iff.1 hticker
        exact ⟨hsome, of_decide_eq_true hdue⟩
      · split at h <;> cases h

/-- With nothing else to do, a loop follows its timer when this is due. -/
theorem turn_of_due {t : Ticker} (hcancelled : l.cancelled = false) (htriggers : l.triggers = 0)
    (hticker : l.ticker = some t) (hdue : t.deadline ≤ now) : l.turn now = .tick t := by
  have hfilter : l.ticker.filter (fun t => t.deadline ≤ now) = some t := by simp [hticker, Option.filter, hdue]
  simp only [turn, hcancelled, htriggers, hfilter]
  rfl

theorem turn_of_not_due {t : Ticker} (hcancelled : l.cancelled = false) (htriggers : l.triggers = 0)
    (hticker : l.ticker = some t) (hdue : now < t.deadline) : l.turn now = match l.queue.poll now with
      | (some _, q) => .reconcile q
      | (none, q) => .wait q := by
  have hfilter : l.ticker.filter (fun t => t.deadline ≤ now) = none := by
    simp [hticker, Option.filter, Nat.not_le_of_lt hdue]
  simp only [turn, hcancelled, htriggers, hfilter]
  rfl

namespace Session

variable {ε : Type} {s : Session ε} {p : Nat}

/-- When the loop has its key queued by its timer, if it does so with this move. -/
def tick? (s : Session ε) : Move ε → Option Nat
  | .turn =>
    match s.loop.phase, s.loop.turn s.now with
    | .idle, .tick _ => some s.now
    | _, _ => none
  | _ => none

def ticks (s : Session ε) : List (Move ε) → List Nat
  | [] => []
  | x :: later => (s.tick? x).toList ++ (s.next x).ticks later

/-- A move either leaves the timer as it is, or the timer ticks because it is due. -/
theorem tick?_cases (h : s.loop.phase ≠ .fresh) (x : Move ε) :
    (s.tick? x = none ∧ (s.next x).loop.ticker = s.loop.ticker) ∨
      ∃ t, s.loop.ticker = some t ∧ t.deadline ≤ s.now ∧ s.tick? x = some s.now ∧
        (s.next x).loop.ticker = some (t.tick s.now) := by
  cases x with
  | arrive x => exact .inl ⟨rfl, (timer_reach s.loop s.now x).2⟩
  | advance millis => exact .inl ⟨rfl, rfl⟩
  | run => exact .inl ⟨rfl, by simp [Session.next, h]⟩
  | finish outcome =>
    refine .inl ⟨rfl, ?_⟩
    simp only [Session.next]
    split
    · exact (timer_finish s.loop s.now outcome).2
    · rfl
  | turn =>
    by_cases hidle : s.loop.phase = .idle
    · cases hturn : s.loop.turn s.now with
      | tick t =>
        obtain ⟨hticker, hdue⟩ := ticker_of_turn hturn
        refine .inr ⟨t, hticker, hdue, by simp [tick?, hidle, hturn], ?_⟩
        simp [Session.next, Session.turn, step, hidle, hturn, enqueueAt]
      | stop | trigger | reconcile q | wait q =>
        refine .inl ⟨by simp [tick?, hidle, hturn], ?_⟩
        simp [Session.next, Session.turn, step, hidle, hturn, enqueueAt]
    · refine .inl ⟨by simp [tick?, hidle], ?_⟩
      simp [Session.next, Session.turn, step_of_not_idle hidle]

theorem phase_next_ne_fresh (h : s.loop.phase ≠ .fresh) (x : Move ε) : (s.next x).loop.phase ≠ .fresh := by
  cases x with
  | arrive x => exact (undisturbed_reach s.loop s.now x).phase ▸ h
  | advance millis => exact h
  | run => simp [Session.next, h]
  | turn =>
    simp only [Session.next, Session.turn]
    split
    · exact h
    · next loop hstep =>
      obtain ⟨hidle, ⟨-, rfl⟩ | ⟨-, hloop⟩ | ⟨-, rfl⟩⟩ := step_cases hstep
      · exact Phase.noConfusion
      · exact hloop.phase ▸ h
      · exact Phase.noConfusion
  | finish outcome =>
    simp only [Session.next]
    split
    · simp only [Session.finish, Loop.finish]
      split <;> exact Phase.noConfusion
    · exact h

/-- From its deadline on, the timer ticks no faster than once per period. -/
theorem le_of_getElem?_ticks {t : Ticker} (hphase : s.loop.phase ≠ .fresh) (hticker : s.loop.ticker = some t)
    (later : List (Move ε)) {k time : Nat} (hk : (s.ticks later)[k]? = some time) :
    t.deadline + k * t.period ≤ time := by
  -- every tick moves the deadline by a period at least, so the bound goes on from the new one
  induction later generalizing s t k with
  | nil => simp [ticks] at hk
  | cons x later ih =>
    have hnext := phase_next_ne_fresh hphase x
    rcases tick?_cases hphase x with ⟨hnone, hsame⟩ | ⟨u, hu, hdue, hsome, hticked⟩
    · rw [ticks, hnone] at hk
      exact ih hnext (hsame.trans hticker) hk
    · obtain rfl : t = u := Option.some.inj (hticker.symm.trans hu)
      rw [ticks, hsome] at hk
      cases k with
      | zero =>
        obtain rfl : s.now = time := by simpa using hk
        omega
      | succ k =>
        have hlater := ih hnext hticked (k := k) (by simpa using hk)
        have hbeat := t.deadline_add_le s.now
        have hperiod : (t.tick s.now).period = t.period := rfl
        rw [hperiod] at hlater
        rw [Nat.succ_mul]
        omega

theorem ticker_run (hfresh : s.loop.phase = .fresh) (hresync : s.loop.timing.resync = some p) (hp : 0 < p) :
    (s.next .run).loop.phase ≠ .fresh ∧ (s.next .run).loop.ticker = some ⟨p, s.now + p, hp⟩ := by
  have hrun : s.next .run = { s with loop := s.loop.run s.now } := if_pos hfresh
  rw [hrun]
  refine ⟨Phase.noConfusion, ?_⟩
  simp [Loop.run, ticker?, enqueueAt, hresync, hp]

/-- The loop has nothing to do at this instant. -/
def Rests (s : Session ε) : Prop := s.loop.phase = .idle ∧ s.loop.step s.now = none

/-- Nothing else happens than that every cycle ends at once and asks for nothing, and no time passes while there is
something to do. -/
def Allows (s : Session ε) : Move ε → Prop
  | .turn => True
  | .finish outcome => outcome = .ok .awaitChange
  | .advance millis => s.Rests ∧ ∀ due, s.loop.nextDue = some due → s.now + millis ≤ due
  | .arrive _ | .run => False

theorem allows_turn (s : Session ε) : s.Allows .turn := trivial

def Alone (s : Session ε) : List (Move ε) → Prop
  | [] => True
  | x :: later => s.Allows x ∧ (s.next x).Alone later

theorem alone_append {earlier later : List (Move ε)} :
    s.Alone (earlier ++ later) ↔ s.Alone earlier ∧ (earlier.foldl next s).Alone later := by
  induction earlier generalizing s with
  | nil => simp [Alone]
  | cons x earlier ih => simp [Alone, ih, and_assoc]

/-- The first beats of a period. -/
def beats (start p n : Nat) : List Nat := (List.range n).map fun k => start + k * p

theorem beats_succ (start p n : Nat) : beats start p (n + 1) = beats start p n ++ [start + n * p] := by
  simp [beats, List.range_succ]

theorem lt_next_beat {start p n now : Nat} (hp : 0 < p) (hnow : now = start + n * p) : now < start + (n + 1) * p := by
  rw [hnow, Nat.succ_mul]
  omega

/-- Nothing but the timer is going to wake the loop, and it ticks next at this beat. -/
structure Steady (start p n : Nat) (s : Session ε) : Prop where
  cancelled : s.loop.cancelled = false
  triggers : s.loop.triggers = 0
  index : s.loop.queue.index = ∅
  agenda : s.loop.queue.agenda = []
  handles : s.loop.queue.handles ≠ 0
  ticker : ∃ t, s.loop.ticker = some t ∧ t.period = p ∧ t.deadline = start + (n + 1) * p

/-- The key is requested on a beat. -/
structure Asked (start p n : Nat) (s : Session ε) : Prop extends Steady start p n s where
  idle : s.loop.phase = .idle
  onBeat : s.now = start + n * p
  mailbox : s.loop.queue.mailbox = [(key, s.now)]
  starts : s.starts.reverse = beats start p n

structure Working (start p n : Nat) (s : Session ε) : Prop extends Steady start p n s where
  busy : s.loop.phase = .busy
  onBeat : s.now = start + n * p
  mailbox : s.loop.queue.mailbox = []
  starts : s.starts.reverse = beats start p (n + 1)

structure Waiting (start p n : Nat) (s : Session ε) : Prop extends Steady start p n s where
  idle : s.loop.phase = .idle
  since : start + n * p ≤ s.now
  until' : s.now ≤ start + (n + 1) * p
  mailbox : s.loop.queue.mailbox = []
  starts : s.starts.reverse = beats start p (n + 1)

/-- How far a loop has come that is left alone. -/
inductive Stage (start p : Nat) (s : Session ε) : Prop
  | asked (n : Nat) (h : s.Asked start p n)
  | working (n : Nat) (h : s.Working start p n)
  | waiting (n : Nat) (h : s.Waiting start p n)

variable {start n : Nat}

theorem next_turn_of_none (h : s.loop.step s.now = none) : s.next .turn = s := by
  simp [Session.next, Session.turn, h]

theorem next_finish_of_idle (h : s.loop.phase = .idle) (outcome : Except ε Action) : s.next (.finish outcome) = s := by
  simp [Session.next, h]

theorem Steady.nextDue (h : s.Steady start p n) (hmailbox : s.loop.queue.mailbox = []) :
    s.loop.nextDue = some (start + (n + 1) * p) := by
  obtain ⟨t, hticker, -, hdeadline⟩ := h.ticker
  have habsorb : s.loop.queue.absorb.agenda = [] := by simp [Queue.absorb, hmailbox, h.agenda]
  simp [Loop.nextDue, hticker, habsorb, hdeadline]

theorem Asked.step (h : s.Asked start p n) (hp : 0 < p) :
    s.loop.step s.now = some { s.loop with queue := { s.loop.queue with mailbox := [] }, phase := .busy } := by
  obtain ⟨t, hticker, -, hdeadline⟩ := h.ticker
  have hturn := turn_of_not_due h.cancelled h.triggers hticker (hdeadline ▸ lt_next_beat hp h.onBeat)
  rw [Queue.poll_of_single h.index h.agenda h.mailbox (Nat.le_refl s.now)] at hturn
  simp only [Loop.step, h.idle, hturn]

theorem Asked.turn (h : s.Asked start p n) (hp : 0 < p) : (s.next .turn).Working start p n := by
  have hnext : s.next .turn = { s with
      loop := { s.loop with queue := { s.loop.queue with mailbox := [] }, phase := .busy }
      starts := s.now :: s.starts } := by
    simp [Session.next, Session.turn, h.step hp]
  have hstarts : (s.now :: s.starts).reverse = beats start p (n + 1) := by
    rw [List.reverse_cons, h.starts, beats_succ, h.onBeat]
  rw [hnext]
  exact ⟨⟨h.cancelled, h.triggers, h.index, h.agenda, h.handles, h.ticker⟩, rfl, h.onBeat, rfl, hstarts⟩

theorem Working.finish (h : s.Working start p n) : (s.next (.finish (.ok .awaitChange))).Waiting start p n := by
  have hnext : s.next (.finish (.ok .awaitChange)) = { s with
      loop := { s.loop with queue := s.loop.queue.forget key, phase := .idle }
      ends := ⟨s.now, .ok .awaitChange⟩ :: s.ends } := by
    simp [Session.next, Session.finish, Loop.finish, report?, h.busy, h.cancelled]
  have huntil : s.now ≤ start + (n + 1) * p := by
    rw [h.onBeat, Nat.succ_mul]
    omega
  rw [hnext]
  exact ⟨⟨h.cancelled, h.triggers, h.index, h.agenda, h.handles, h.ticker⟩, rfl, Nat.le_of_eq h.onBeat.symm, huntil,
    h.mailbox, h.starts⟩

theorem Waiting.step_before (h : s.Waiting start p n) (hlt : s.now < start + (n + 1) * p) :
    s.loop.step s.now = none := by
  obtain ⟨t, hticker, -, hdeadline⟩ := h.ticker
  have hturn := turn_of_not_due h.cancelled h.triggers hticker (hdeadline ▸ hlt)
  rw [Queue.poll_of_empty h.agenda h.mailbox] at hturn
  simp only [Loop.step, h.idle, hturn]

theorem Waiting.step_on_beat (h : s.Waiting start p n) (hnow : s.now = start + (n + 1) * p) :
    ∃ t, t.period = p ∧ t.deadline = start + (n + 2) * p ∧
      s.loop.step s.now = some ({ s.loop with ticker := some t }.enqueueAt s.now) := by
  obtain ⟨t, hticker, hperiod, hdeadline⟩ := h.ticker
  have hturn := turn_of_due h.cancelled h.triggers hticker (Nat.le_of_eq (hdeadline.trans hnow.symm))
  refine ⟨t.tick s.now, hperiod, ?_, ?_⟩
  · rw [t.deadline_tick (Nat.le_of_eq (hnow.trans hdeadline.symm)), hdeadline, hperiod, Nat.add_assoc, ← Nat.succ_mul]
  · simp only [Loop.step, h.idle, hturn]

/-- On a beat the timer requests the key. -/
theorem Waiting.turn (h : s.Waiting start p n) (hnow : s.now = start + (n + 1) * p) :
    (s.next .turn).Asked start p (n + 1) := by
  obtain ⟨t, hperiod, hdeadline, hstep⟩ := h.step_on_beat hnow
  have hqueue : s.loop.queue.enqueueAt key s.now = { s.loop.queue with mailbox := [(key, s.now)] } := by
    simp [Queue.enqueueAt, h.handles, h.mailbox]
  have hnext : s.next .turn = { s with
      loop := { s.loop with ticker := some t, queue := { s.loop.queue with mailbox := [(key, s.now)] } } } := by
    simp [Session.next, Session.turn, hstep, enqueueAt, hqueue, h.idle]
  rw [hnext]
  exact ⟨⟨h.cancelled, h.triggers, h.index, h.agenda, h.handles, t, rfl, hperiod, hdeadline⟩, h.idle, hnow, rfl, h.starts⟩

theorem Waiting.advance (h : s.Waiting start p n) {millis : Nat} (hle : s.now + millis ≤ start + (n + 1) * p) :
    (s.next (.advance millis)).Waiting start p n :=
  ⟨⟨h.cancelled, h.triggers, h.index, h.agenda, h.handles, h.ticker⟩, h.idle, Nat.le_add_right_of_le h.since, hle,
    h.mailbox, h.starts⟩

/-- A loop that has nothing to do waits for a beat that is still to come. -/
theorem Stage.waiting_of_rests (h : Stage start p s) (hp : 0 < p) (hrests : s.Rests) :
    ∃ n, s.Waiting start p n ∧ s.now < start + (n + 1) * p := by
  obtain ⟨hidle, hnone⟩ := hrests
  cases h with
  | asked n h =>
    rw [h.step hp] at hnone
    cases hnone
  | working n h =>
    rw [h.busy] at hidle
    cases hidle
  | waiting n h =>
    refine ⟨n, h, Nat.lt_of_le_of_ne h.until' fun hbeat => ?_⟩
    obtain ⟨t, -, -, hstep⟩ := h.step_on_beat hbeat
    rw [hstep] at hnone
    cases hnone

/-- What is allowed to a loop that is left alone takes it to its next stage, or leaves it where it is. -/
theorem Stage.next (h : Stage start p s) (hp : 0 < p) {x : Move ε} (hx : s.Allows x) : Stage start p (s.next x) := by
  cases x with
  | turn =>
    cases h with
    | asked n h => exact .working n (h.turn hp)
    | working n h =>
      rw [next_turn_of_none (step_of_not_idle (by simp [h.busy]) _)]
      exact .working n h
    | waiting n h =>
      rcases Nat.lt_or_eq_of_le h.until' with hlt | hbeat
      · rw [next_turn_of_none (h.step_before hlt)]
        exact .waiting n h
      · exact .asked (n + 1) (h.turn hbeat)
  | finish outcome =>
    obtain rfl : outcome = .ok .awaitChange := hx
    cases h with
    | asked n h =>
      rw [next_finish_of_idle h.idle]
      exact .asked n h
    | working n h => exact .waiting n h.finish
    | waiting n h =>
      rw [next_finish_of_idle h.idle]
      exact .waiting n h
  | advance millis =>
    obtain ⟨hrests, hdue⟩ := hx
    obtain ⟨n, hwaiting, -⟩ := h.waiting_of_rests hp hrests
    exact .waiting n (hwaiting.advance (hdue _ (hwaiting.nextDue hwaiting.mailbox)))
  | arrive x | run => exact hx.elim

theorem Stage.foldl (h : Stage start p s) (hp : 0 < p) {later : List (Move ε)} (hlater : s.Alone later) :
    Stage start p (later.foldl Session.next s) := by
  induction later generalizing s with
  | nil => exact h
  | cons x later ih =>
    obtain ⟨hx, hlater⟩ := hlater
    exact ih (h.next hp hx) hlater

theorem stage_run {grow : Nat → Nat} {timing : LoopTiming} {now : Nat} (hresync : timing.resync = some p) (hp : 0 < p) :
    Stage now p ((new (ε := ε) grow timing now).next .run) := by
  have hticker : ((new (ε := ε) grow timing now).next .run).loop.ticker = some ⟨p, now + p, hp⟩ :=
    (ticker_run rfl hresync hp).2
  have hbeat : now = now + 0 * p := by rw [Nat.zero_mul, Nat.add_zero]
  have hdeadline : now + p = now + (0 + 1) * p := by rw [Nat.zero_add, Nat.one_mul]
  exact .asked 0 ⟨⟨rfl, rfl, rfl, rfl, Nat.one_ne_zero, _, hticker, rfl, hdeadline⟩, rfl, hbeat, rfl, rfl⟩

/-- Cycles are started on the beats, from the first one on, and on no others. -/
theorem Stage.starts (h : Stage start p s) : ∃ n, s.starts.reverse = beats start p n := by
  cases h with
  | asked n h => exact ⟨n, h.starts⟩
  | working n h => exact ⟨n + 1, h.starts⟩
  | waiting n h => exact ⟨n + 1, h.starts⟩

/-- Whenever there is nothing to do, a cycle has been started on every beat that has come. -/
theorem Stage.starts_of_rests (h : Stage start p s) (hp : 0 < p) (hrests : s.Rests) :
    s.starts.reverse = beats start p ((s.now - start) / p + 1) := by
  obtain ⟨n, hwaiting, hlt⟩ := h.waiting_of_rests hp hrests
  have hsince := hwaiting.since
  have hn : (s.now - start) / p = n := by
    rw [Nat.div_eq_iff hp]
    have hsucc : (n + 1) * p = n * p + p := Nat.succ_mul n p
    omega
  rw [hn, hwaiting.starts]

/-- The loop can come to rest at this instant. -/
def Settles (s : Session ε) : Prop :=
  ∃ later : List (Move ε), s.Alone later ∧ (later.foldl next s).now = s.now ∧ (later.foldl next s).Rests

theorem Settles.of_next {x : Move ε} (hx : s.Allows x) (hnow : (s.next x).now = s.now) (h : (s.next x).Settles) :
    s.Settles := by
  obtain ⟨later, halone, hlater, hrests⟩ := h
  exact ⟨x :: later, ⟨hx, halone⟩, hlater.trans hnow, hrests⟩

theorem now_turn (s : Session ε) : (s.next .turn).now = s.now := by
  simp only [Session.next, Session.turn]
  split <;> rfl

theorem now_finish (s : Session ε) (outcome : Except ε Action) : (s.next (.finish outcome)).now = s.now := by
  simp only [Session.next]
  split <;> rfl

theorem Waiting.settles (h : s.Waiting start p n) (hlt : s.now < start + (n + 1) * p) : s.Settles :=
  ⟨[], trivial, rfl, h.idle, h.step_before hlt⟩

theorem Working.settles (h : s.Working start p n) (hp : 0 < p) : s.Settles := by
  have hallows : s.Allows (.finish (.ok .awaitChange)) := rfl
  have hnow := now_finish s (.ok .awaitChange)
  exact .of_next hallows hnow (h.finish.settles (hnow.symm ▸ lt_next_beat hp h.onBeat))

theorem Asked.settles (h : s.Asked start p n) (hp : 0 < p) : s.Settles :=
  .of_next s.allows_turn (now_turn s) ((h.turn hp).settles hp)

theorem Stage.settles (h : Stage start p s) (hp : 0 < p) : s.Settles := by
  cases h with
  | asked n h => exact h.settles hp
  | working n h => exact h.settles hp
  | waiting n h =>
    rcases Nat.lt_or_eq_of_le h.until' with hlt | hbeat
    · exact h.settles hlt
    · exact .of_next s.allows_turn (now_turn s) ((h.turn hbeat).settles hp)

theorem Stage.allows_advance (h : Stage start p s) (hp : 0 < p) (hrests : s.Rests) : s.Allows (.advance 1) := by
  refine ⟨hrests, fun due hdue => ?_⟩
  obtain ⟨n, hwaiting, hlt⟩ := h.waiting_of_rests hp hrests
  obtain rfl : start + (n + 1) * p = due := Option.some.inj ((hwaiting.nextDue hwaiting.mailbox).symm.trans hdue)
  exact hlt

theorem Stage.lasts (h : Stage start p s) (hp : 0 < p) (millis : Nat) :
    ∃ later : List (Move ε), s.Alone later ∧ (later.foldl Session.next s).now = s.now + millis ∧
      (later.foldl Session.next s).Rests := by
  induction millis with
  | zero => exact h.settles hp
  | succ millis ih =>
    obtain ⟨earlier, halone, hnow, hrests⟩ := ih
    have hstage := h.foldl hp halone
    generalize hs : earlier.foldl Session.next s = t at hnow hrests hstage
    have hadvance := hstage.allows_advance hp hrests
    obtain ⟨later, hlater, hlaterNow, hlaterRests⟩ := (hstage.next hp hadvance).settles hp
    have hsplit : (earlier ++ .advance 1 :: later).foldl Session.next s =
        later.foldl Session.next (t.next (.advance 1)) := by
      rw [List.foldl_append, hs, List.foldl_cons]
    refine ⟨earlier ++ .advance 1 :: later, alone_append.2 ⟨halone, ?_⟩, ?_, ?_⟩
    · rw [hs]
      exact ⟨hadvance, hlater⟩
    · rw [hsplit, hlaterNow]
      exact (congrArg (· + 1) hnow).trans (Nat.add_assoc _ _ _)
    · rw [hsplit]
      exact hlaterRests

theorem timing_next (s : Session ε) (x : Move ε) : (s.next x).loop.timing = s.loop.timing := by
  cases x with
  | arrive x => exact (timer_reach s.loop s.now x).1
  | advance millis => rfl
  | run =>
    simp only [Session.next]
    split <;> rfl
  | turn =>
    simp only [Session.next, Session.turn]
    split
    · rfl
    · next loop hstep => exact timing_step hstep
  | finish outcome =>
    simp only [Session.next]
    split
    · exact (timer_finish s.loop s.now outcome).1
    · rfl

theorem timing_after (grow : Nat → Nat) (timing : LoopTiming) (now : Nat) (l : List (Move ε)) :
    (after grow timing now l).loop.timing = timing :=
  List.foldlRecOn l (motive := fun s => s.loop.timing = timing) next rfl fun s h x _ => (timing_next s x).trans h

/-- How a loop with a period keeps time. -/
structure KeepsTime (ε : Type) (grow : Nat → Nat) (timing : LoopTiming) (p : Nat) : Prop where
  /-- Whatever happens to the loop before and after it begins to run, its ticks come no faster than once per period. -/
  spaced : ∀ (start : Nat) (earlier later : List (Move ε)),
    let s := after grow timing start earlier
    s.loop.phase = .fresh → ∀ k time, ((s.next .run).ticks later)[k]? = some time → s.now + (k + 1) * p ≤ time
  bounded : ∀ (start : Nat) (earlier later : List (Move ε)),
    let s := after grow timing start earlier
    s.loop.phase = .fresh → ∀ limit,
      (((s.next .run).ticks later).filter (· ≤ limit)).length ≤ (limit - s.now) / p
  /-- A loop that is left alone starts cycles on the beats, and misses none. -/
  onBeat : ∀ (start : Nat) (later : List (Move ε)),
    let s := (new grow timing start).next .run
    s.Alone later → ∃ n, (later.foldl next s).starts.reverse = beats start p n ∧
      ((later.foldl next s).Rests → n = ((later.foldl next s).now - start) / p + 1)
  /-- It can be left alone for as long as one likes. -/
  lasting : ∀ start millis : Nat, ∃ later : List (Move ε),
    let s := (new grow timing start).next .run
    s.Alone later ∧ (later.foldl next s).now = start + millis ∧ (later.foldl next s).Rests

theorem keepsTime_of_resync (ε : Type) (grow : Nat → Nat) {timing : LoopTiming} (hresync : timing.resync = some p)
    (hp : 0 < p) : KeepsTime ε grow timing p := by
  have hspaced : ∀ (start : Nat) (earlier later : List (Move ε)), (after grow timing start earlier).loop.phase = .fresh →
      ∀ k time, (((after grow timing start earlier).next .run).ticks later)[k]? = some time →
        (after grow timing start earlier).now + (k + 1) * p ≤ time := by
    intro start earlier later hfresh k time hk
    have htiming := congrArg LoopTiming.resync (timing_after grow timing start earlier)
    obtain ⟨hphase, hticker⟩ := ticker_run hfresh (htiming.trans hresync) hp
    have hle := le_of_getElem?_ticks hphase hticker later hk
    rw [Nat.succ_mul]
    dsimp only at hle
    omega
  refine ⟨hspaced, ?_, ?_, ?_⟩
  · intro start earlier later s hfresh limit
    refine length_filter_le_of_getElem? fun k time hk hlimit => ?_
    have hle := hspaced start earlier later hfresh k time hk
    have htime : time ≤ limit := of_decide_eq_true hlimit
    rw [← Nat.succ_le_iff, Nat.le_div_iff_mul_le hp]
    exact Nat.le_sub_of_add_le' (Nat.le_trans hle htime)
  · intro start later s halone
    have hstage : Stage start p (later.foldl next s) := (stage_run hresync hp).foldl hp halone
    obtain ⟨n, hn⟩ := hstage.starts
    refine ⟨n, hn, fun hrests => ?_⟩
    have hlength := congrArg List.length (hn.symm.trans (hstage.starts_of_rests hp hrests))
    simpa [beats] using hlength
  · intro start millis
    exact (stage_run hresync hp).lasts hp millis

/-- A cycle of seventy seconds holds up the first tick and swallows the second one, and the third one comes half a
minute after the first. -/
theorem keepsTime_of_half_minute :
    let timing : LoopTiming := { resync := some 30000 }
    let s := (new (ε := Unit) Delay.twice timing 0).next .run
    KeepsTime Unit Delay.twice timing 30000 ∧
      s.ticks [.turn, .advance 70000, .finish (.ok .awaitChange), .turn, .turn, .finish (.ok .awaitChange),
        .advance 29000, .turn, .advance 1000, .turn] = [70000, 100000] :=
  ⟨keepsTime_of_resync Unit Delay.twice rfl (by decide), rfl⟩

end Session

end Loop

end RolloutControl
