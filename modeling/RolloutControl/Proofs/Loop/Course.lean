import RolloutControl.Proofs.Loop.Log
/-! Courses of a loop. Every trigger is read before the next cycle starts, every request is in the queue until one
starts, and a cycle starts for nothing else. -/

namespace RolloutControl

/-- An event that a loop should not miss if it looks at these namespaces: a new list, or an object that is in one of
them or in none. -/
def WatchEvent.Concerns {α : Type} [ClusterObject α] (filter : SpaceFilter) : WatchEvent α → Prop
  | .restarted _ => True
  | .applied a | .deleted a =>
    match filter with
    | .all => True
    | .only spaces => ∀ space, (ClusterObject.metadata a).space = some space → space ∈ spaces

theorem WatchEvent.passes_iff {α : Type} [ClusterObject α] {filter : SpaceFilter} {e : WatchEvent α} :
    e.passes filter = true ↔ e.Concerns filter := by
  cases e with
  | restarted all => simp [passes, Concerns]
  | applied a | deleted a =>
    cases filter with
    | all => simp [passes, Concerns, SpaceFilter.accepts]
    | only spaces =>
      simp only [passes, Concerns]
      cases (ClusterObject.metadata a).space <;> simp [SpaceFilter.accepts]

instance {α : Type} [ClusterObject α] (filter : SpaceFilter) (e : WatchEvent α) : Decidable (e.Concerns filter) :=
  decidable_of_iff _ WatchEvent.passes_iff

namespace Loop

/-- What an idle loop does that is not cancelled. Triggers come first, then ticks, and then the queue. -/
theorem turn_cases {l : Loop} (h : l.cancelled = false) (now : Nat) :
    (0 < l.triggers ∧ l.turn now = .trigger) ∨ l.triggers = 0 ∧
      ((∃ t, l.turn now = .tick t) ∨
        (∃ k, (l.queue.poll now).1 = some k ∧ l.turn now = .reconcile (l.queue.poll now).2) ∨
        ((l.queue.poll now).1 = none ∧ l.turn now = .wait (l.queue.poll now).2)) := by
  unfold turn
  rw [h, if_neg Bool.false_ne_true]
  by_cases htriggers : 0 < l.triggers
  · exact .inl ⟨htriggers, if_pos htriggers⟩
  · refine .inr ⟨Nat.eq_zero_of_not_pos htriggers, ?_⟩
    rw [if_neg htriggers]
    split
    · next t _ => exact .inl ⟨t, rfl⟩
    · split
      · next k q hpoll => exact .inr (.inl ⟨k, by rw [hpoll], by rw [hpoll]⟩)
      · next q hpoll => exact .inr (.inr ⟨by rw [hpoll], by rw [hpoll]⟩)

theorem step_of_not_idle {l : Loop} (h : l.phase ≠ .idle) (now : Nat) : l.step now = none := by
  unfold step
  split
  · rfl
  · rfl
  · rfl
  · next hidle => exact absurd hidle h

/-- What a loop is exposed to, and what it does. A cycle takes its time and ends as it likes. -/
inductive Input : Type 1
  | enqueue
  | enqueueAfter (millis : Nat)
  | trigger
  | watch {α : Type} [ClusterObject α] (filter : SpaceFilter) (e : WatchEvent α)
  | closeTriggers
  | advance (millis : Nat)
  | run
  | turn
  | finish {ε : Type} (outcome : Except ε Action)

/-- A loop with its clock and its log, the last entry first. -/
structure Course where
  now : Nat
  loop : Loop
  log : List Entry

namespace Course

def new (timing : LoopTiming) (now : Nat) : Course := { now, loop := .new timing, log := [] }

def add (c : Course) (what : Happening) (loop : Loop) : Course :=
  { c with loop, log := ⟨c.now, what⟩ :: c.log }

def turned (c : Course) : Happening :=
  match c.loop.turn c.now with
  | .trigger => .read
  | .tick _ => .ticked
  | _ => .started

def ended {ε : Type} (c : Course) (outcome : Except ε Action) : Happening :=
  match outcome with
  | .ok .awaitChange => .settled
  | .ok (.requeueAfter millis) => .requeued (c.now + millis)
  | .ok .requeueRateLimited | .error _ => .requeued (c.now + Delay.wholeMillis (c.loop.queue.nextDelay key))

def next (c : Course) : Input → Course
  | .enqueue => c.add .enqueued (c.loop.request c.now)
  | .enqueueAfter millis => c.add (.enqueuedAfter millis) (c.loop.request (c.now + millis))
  | .trigger => if c.loop.listening then c.add .triggered c.loop.trigger else c
  | @Input.watch _ _ filter e =>
    if c.loop.listening then c.add (if e.Concerns filter then .triggered else .overlooked) (c.loop.watch filter e)
    else c
  | .closeTriggers => { c with loop := c.loop.closeTriggers }
  | .advance millis => { c with now := c.now + millis }
  | .run => if c.loop.phase = .fresh then c.add .began (c.loop.run c.now) else c
  | .turn =>
    match c.loop.step c.now with
    | none => c
    | some loop => c.add c.turned loop
  | .finish outcome => if c.loop.phase = .busy then c.add (c.ended outcome) (c.loop.finish c.now outcome) else c

def after (timing : LoopTiming) (now : Nat) (l : List Input) : Course := l.foldl next (new timing now)

/-- What holds at any time. As long as triggers are not read they are not forgotten, because no cycle starts before the
last one is read. -/
structure Sound (c : Course) : Prop where
  tracks : c.loop.queue.Tracks (queueHistory c.log)
  handles : c.loop.queue.handles ≠ 0
  running : c.loop.cancelled = false ∧ c.loop.phase ≠ .stopped
  times : ∀ e ∈ c.log, e.time ≤ c.now
  sorted : c.log.Pairwise fun a b => b.time ≤ a.time
  triggers : (since c.log).countP (fun e => e.what = .read) + c.loop.triggers =
    (since c.log).countP fun e => e.what = .triggered
  caused : Caused c.log

variable {c : Course} {what : Happening} {loop : Loop}

theorem Sound.new (timing : LoopTiming) (now : Nat) : (Course.new timing now).Sound where
  tracks := .new timing.base timing.max
  handles := Nat.one_ne_zero
  running := ⟨rfl, Phase.noConfusion⟩
  times := by simp [Course.new]
  sorted := List.Pairwise.nil
  triggers := rfl
  caused newer s older h := by simp [Course.new] at h

theorem Sound.times_add (h : c.Sound) (what : Happening) (loop : Loop) :
    (∀ e ∈ (c.add what loop).log, e.time ≤ (c.add what loop).now) ∧
      (c.add what loop).log.Pairwise fun a b => b.time ≤ a.time :=
  ⟨List.forall_mem_cons.2 ⟨Nat.le_refl _, h.times⟩, List.pairwise_cons.2 ⟨h.times, h.sorted⟩⟩

theorem Sound.add (h : c.Sound) (hwhat : what ≠ .started)
    (htracks : loop.queue.Tracks (Entry.toQueue ⟨c.now, what⟩ ++ queueHistory c.log))
    (hhandles : loop.queue.handles ≠ 0) (hrunning : loop.cancelled = false ∧ loop.phase ≠ .stopped)
    (htriggers : (if what = .read then 1 else 0) + loop.triggers =
      c.loop.triggers + if what = .triggered then 1 else 0) : (c.add what loop).Sound where
  tracks := htracks
  handles := hhandles
  running := hrunning
  times := (h.times_add what loop).1
  sorted := (h.times_add what loop).2
  triggers := by
    have hbefore := h.triggers
    have hsince : since (c.add what loop).log = ⟨c.now, what⟩ :: since c.log := by simp [Course.add, since_cons, hwhat]
    rw [hsince, List.countP_cons, List.countP_cons]
    simp only [decide_eq_true_eq]
    change _ + loop.triggers = _
    omega
  caused := h.caused.cons fun hstarted => absurd hstarted hwhat

theorem Sound.post {due : Nat} (h : c.Sound) (hqueue : loop.queue = c.loop.queue.enqueueAt key due)
    (hwhat : Entry.toQueue ⟨c.now, what⟩ = [.posted key due])
    (hrunning : loop.cancelled = false ∧ loop.phase ≠ .stopped)
    (htriggers : (if what = .read then 1 else 0) + loop.triggers =
      c.loop.triggers + if what = .triggered then 1 else 0) : (c.add what loop).Sound := by
  refine h.add ?_ ?_ ?_ hrunning htriggers
  · rintro rfl
    exact nomatch hwhat
  · rw [hwhat, hqueue]
    exact h.tracks.enqueueAt h.handles key due
  · rw [hqueue, Queue.handles_enqueueAt]
    exact h.handles

theorem Sound.read_iff_triggered (h : c.Sound) (htriggers : c.loop.triggers = 0) :
    (∃ e ∈ since c.log, e.what = .read) ↔ ∃ e ∈ since c.log, e.what = .triggered := by
  have hcount (x : Happening) :
      (∃ e ∈ since c.log, e.what = x) ↔ 0 < (since c.log).countP fun e => e.what = x := by
    simp [List.countP_pos_iff]
  rw [hcount, hcount, ← h.triggers, htriggers, Nat.add_zero]

/-- A cycle starts. Nothing but the key is ever due, and what it is due for has come since the last start. -/
theorem Sound.start {k : String} (h : c.Sound) (htriggers : c.loop.triggers = 0)
    (hpoll : (c.loop.queue.poll c.now).1 = some k) :
    (c.add .started { c.loop with queue := (c.loop.queue.poll c.now).2, phase := .busy }).Sound := by
  obtain ⟨due, hdue, -⟩ := h.tracks.exists_wanted_of_poll hpoll
  have hk : k = key := by
    by_contra hne
    rw [wanted_of_ne hne] at hdue
    exact nomatch hdue
  subst hk
  -- the key was requested by a cause itself, or for a trigger that has come since the last start
  have hcause : ∃ e ∈ since c.log, e.IsCause := by
    obtain ⟨e, he, hasks⟩ := mem_wanted.1 hdue
    rcases Entry.isCause_or_read_of_due hasks with hcause | hread
    · exact ⟨e, he, hcause⟩
    · obtain ⟨d, hd, htriggered⟩ := (h.read_iff_triggered htriggers).1 ⟨e, he, hread⟩
      exact ⟨d, hd, by simp [Entry.IsCause, htriggered]⟩
  have htracks := h.tracks.poll c.now
  rw [hpoll] at htracks
  exact {
    tracks := htracks
    handles := by
      change (c.loop.queue.poll c.now).2.handles ≠ 0
      rw [Queue.handles_poll]
      exact h.handles
    running := ⟨h.running.1, Phase.noConfusion⟩
    times := (h.times_add _ _).1
    sorted := (h.times_add _ _).2
    triggers := by simp [Course.add, since_cons, htriggers]
    caused := h.caused.cons fun _ => hcause }

theorem Sound.request_eq (h : c.Sound) (due : Nat) : c.loop.request due = c.loop.enqueueAt due :=
  if_neg h.running.2

theorem Sound.next_trigger (h : c.Sound) (hlistening : c.loop.listening = true) :
    (c.add .triggered c.loop.trigger).Sound := by
  have htrigger : c.loop.trigger = { c.loop with triggers := c.loop.triggers + 1 } := if_pos hlistening
  rw [htrigger]
  exact h.add Happening.noConfusion h.tracks h.handles h.running (Nat.zero_add _)

theorem Sound.next_watch (h : c.Sound) {α : Type} [ClusterObject α] (filter : SpaceFilter) (e : WatchEvent α) :
    (c.next (.watch filter e)).Sound := by
  simp only [next]
  split
  · next hlistening =>
    split
    · next hconcerns =>
      have hwatch : c.loop.watch filter e = c.loop.trigger := if_pos (WatchEvent.passes_iff.2 hconcerns)
      rw [hwatch]
      exact h.next_trigger hlistening
    · next hconcerns =>
      have hwatch : c.loop.watch filter e = c.loop := if_neg (mt WatchEvent.passes_iff.1 hconcerns)
      rw [hwatch]
      exact h.add Happening.noConfusion h.tracks h.handles h.running (Nat.zero_add _)
  · exact h

theorem Sound.next_turn (h : c.Sound) : (c.next .turn).Sound := by
  by_cases hidle : c.loop.phase = .idle
  · rcases turn_cases h.running.1 c.now with
      ⟨htriggers, hturn⟩ | ⟨htriggers, ⟨t, hturn⟩ | ⟨k, hpoll, hturn⟩ | ⟨-, hturn⟩⟩
    · simp only [Course.next, step, hidle, hturn, turned]
      exact h.post rfl rfl ⟨h.running.1, Phase.noConfusion⟩ (Nat.add_sub_cancel' htriggers)
    · simp only [Course.next, step, hidle, hturn, turned]
      exact h.post rfl rfl ⟨h.running.1, Phase.noConfusion⟩ (Nat.zero_add _)
    · simp only [Course.next, step, hidle, hturn, turned]
      exact h.start htriggers hpoll
    · simp only [Course.next, step, hidle, hturn]
      exact h
  · simp only [Course.next, step_of_not_idle hidle]
    exact h

/-- A cycle that asks for another one, whatever else happens to its failures. -/
theorem Sound.requeue {q : Queue String} {due : Nat} (h : c.Sound)
    (htracks : q.Tracks (.scheduled key due :: queueHistory c.log)) (hhandles : q.handles = c.loop.queue.handles) :
    (c.add (.requeued due) { c.loop with queue := q, phase := .idle }).Sound :=
  h.add Happening.noConfusion htracks (hhandles ▸ h.handles) ⟨h.running.1, Phase.noConfusion⟩ (Nat.zero_add _)

theorem Sound.next_finish (h : c.Sound) {ε : Type} (outcome : Except ε Action) : (c.next (.finish outcome)).Sound := by
  have hforgot : (c.loop.queue.forget key).Tracks (queueHistory c.log) := h.tracks.congr rfl rfl rfl
  have hretried := h.tracks.retry c.now key
  have hrunning : ¬c.loop.cancelled = true := by
    rw [h.running.1]
    exact Bool.false_ne_true
  simp only [Course.next]
  split
  · cases outcome with
    | error e =>
      have hfinish : c.loop.finish c.now (.error e : Except ε Action) =
          { c.loop with queue := c.loop.queue.retry c.now key, phase := .idle } := if_neg hrunning
      rw [hfinish]
      exact h.requeue hretried (Queue.handles_schedule _ key _)
    | ok action =>
      cases action with
      | awaitChange =>
        have hfinish : c.loop.finish c.now (.ok .awaitChange : Except ε Action) =
            { c.loop with queue := c.loop.queue.forget key, phase := .idle } := if_neg hrunning
        rw [hfinish]
        exact h.add Happening.noConfusion hforgot h.handles ⟨h.running.1, Phase.noConfusion⟩ (Nat.zero_add _)
      | requeueAfter millis =>
        have hfinish : c.loop.finish c.now (.ok (.requeueAfter millis) : Except ε Action) =
            { c.loop with queue := (c.loop.queue.forget key).schedule key (c.now + millis), phase := .idle } :=
          if_neg hrunning
        rw [hfinish]
        exact h.requeue (hforgot.schedule key _) (Queue.handles_schedule _ key _)
      | requeueRateLimited =>
        have hfinish : c.loop.finish c.now (.ok .requeueRateLimited : Except ε Action) =
            { c.loop with queue := c.loop.queue.retry c.now key, phase := .idle } := if_neg hrunning
        rw [hfinish]
        exact h.requeue hretried (Queue.handles_schedule _ key _)
  · exact h

theorem Sound.next (h : c.Sound) (x : Input) : (c.next x).Sound := by
  cases x with
  | enqueue =>
    simp only [Course.next, h.request_eq]
    exact h.post rfl rfl h.running (Nat.zero_add _)
  | enqueueAfter millis =>
    simp only [Course.next, h.request_eq]
    exact h.post rfl rfl h.running (Nat.zero_add _)
  | trigger =>
    simp only [Course.next]
    split
    · next hlistening => exact h.next_trigger hlistening
    · exact h
  | watch filter e => exact h.next_watch filter e
  | closeTriggers => exact ⟨h.tracks, h.handles, h.running, h.times, h.sorted, h.triggers, h.caused⟩
  | advance millis =>
    exact ⟨h.tracks, h.handles, h.running, fun e he => Nat.le_trans (h.times e he) (Nat.le_add_right _ _), h.sorted,
      h.triggers, h.caused⟩
  | run =>
    simp only [Course.next]
    split
    · exact h.post rfl rfl ⟨h.running.1, Phase.noConfusion⟩ (Nat.zero_add _)
    · exact h
  | turn => exact h.next_turn
  | finish outcome => exact h.next_finish outcome

theorem sound_after (timing : LoopTiming) (now : Nat) (l : List Input) : (after timing now l).Sound :=
  List.foldlRecOn l (motive := Sound) Course.next (.new timing now) fun _ h x _ => h.next x

/-- When nothing is left to do, nothing that has come since the last start calls for another one. -/
theorem Sound.not_calls (h : c.Sound) (hidle : c.loop.phase = .idle) (hstep : c.loop.step c.now = none) {e : Entry}
    (he : e ∈ since c.log) : ¬e.Calls c.now := by
  rcases turn_cases h.running.1 c.now with
    ⟨-, hturn⟩ | ⟨htriggers, ⟨t, hturn⟩ | ⟨k, -, hturn⟩ | ⟨hpoll, -⟩⟩
  · simp [step, hidle, hturn] at hstep
  · simp [step, hidle, hturn] at hstep
  · simp [step, hidle, hturn] at hstep
  have hdue {d : Entry} (hd : d ∈ since c.log) {due : Nat} (hasks : d.due? = some due) : c.now < due :=
    h.tracks.lt_of_poll hpoll (mem_wanted.2 ⟨d, hd, hasks⟩)
  have htime {d : Entry} (hd : d ∈ since c.log) : d.time ≤ c.now := h.times d (List.takeWhile_subset _ hd)
  intro hcalls
  rcases Entry.triggered_or_due_of_calls hcalls (htime he) with htriggered | ⟨due, hasks, hle⟩
  · -- a trigger was read since then as well, and that made the key due
    obtain ⟨d, hd, hread⟩ := (h.read_iff_triggered htriggers).2 ⟨e, he, htriggered⟩
    exact Nat.not_lt_of_le (htime hd) (hdue hd (by simp [Entry.due?, hread]))
  · exact Nat.not_lt_of_le hle (hdue he hasks)

/-- No wakeup is lost, and none is invented. -/
structure Wakes (c : Course) : Prop where
  /-- When nothing is left to do, a cycle was started after everything that called for one. -/
  answered : c.loop.phase = .idle → c.loop.step c.now = none → ∀ newer e older, c.log = newer ++ e :: older →
    e.Calls c.now → ∃ s ∈ newer, s.what = .started ∧ e.time ≤ s.time
  /-- Before every start, something has come since the one before. -/
  caused : ∀ newer s older, c.log = newer ++ s :: older → s.what = .started → ∃ e ∈ since older, e.IsCause
  overlooked : ∀ (α : Type) [ClusterObject α] (filter : SpaceFilter) (e : WatchEvent α), ¬e.Concerns filter →
    (c.next (.watch filter e)).loop = c.loop

theorem wakes_after (timing : LoopTiming) (now : Nat) (l : List Input) : (after timing now l).Wakes where
  answered := by
    have h := sound_after timing now l
    generalize after timing now l = c at h ⊢
    intro hidle hstep newer e older hlog hcalls
    by_contra hnone
    have hnewer : ∀ s ∈ newer, s.what ≠ .started := by
      intro s hs hstarted
      have hsorted := h.sorted
      rw [hlog, List.pairwise_append] at hsorted
      exact hnone ⟨s, hs, hstarted, hsorted.2.2 s hs e List.mem_cons_self⟩
    have he : e.what ≠ .started := by
      intro hstarted
      simp [Entry.Calls, hstarted] at hcalls
    exact h.not_calls hidle hstep (hlog ▸ mem_since hnewer he) hcalls
  caused := (sound_after timing now l).caused
  overlooked α _ filter e he := by
    simp only [Course.next]
    split
    · exact if_neg (mt WatchEvent.passes_iff.1 he)
    · rfl

/-- A trigger that arrives during the first cycle, an event that does not concern the loop during the second one, which
fails, and a third cycle after the delay. -/
def disturbed : List Input :=
  [.run, .turn, .advance 2, .trigger, .advance 1, .finish (.ok .awaitChange : Except String Action), .turn, .turn,
    .watch (.only ["openshift-apiserver"]) (.applied ({ metadata := { space := some "kube-system" } } : Pod)),
    .finish (.error "refused" : Except String Action), .turn, .advance 5, .turn,
    .finish (.ok .awaitChange : Except String Action)]

theorem wakes_after_disturbed :
    (after {} 0 disturbed).Wakes ∧ (after {} 0 disturbed).loop.phase = .idle ∧
      (after {} 0 disturbed).loop.step (after {} 0 disturbed).now = none ∧
      ((after {} 0 disturbed).log.filter fun e => e.what = .started).map (·.time) = [8, 3, 0] :=
  ⟨wakes_after {} 0 disturbed, rfl, rfl, rfl⟩

end Course

end Loop

end RolloutControl
