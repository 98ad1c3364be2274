import Mathlib.Data.List.Induction
import RolloutControl.Proofs.Queue.History
/-! A queue over any course of its use is a map from keys to the earliest due times for which they were requested since
they were last handed out. -/

namespace RolloutControl.Queue

/-- What producers, the consumer and the clock do. -/
inductive Operation (κ : Type)
  | enqueue (k : κ)
  | enqueueAfter (k : κ) (millis : Nat)
  | scheduleAfter (k : κ) (millis : Nat)
  | retry (k : κ)
  | forget (k : κ)
  | advance (millis : Nat)
  | cloneHandle
  | dropHandle
  | poll
  | drain

/-- How many producers there are after an operation. Those that are gone cannot be cloned. -/
def Operation.remaining {κ : Type} (n : Nat) : Operation κ → Nat
  | .cloneHandle => if n = 0 then 0 else n + 1
  | .dropHandle => n - 1
  | _ => n

/-- How many producers are left: there is one at first. -/
def producers {κ : Type} (l : List (Operation κ)) : Nat := l.foldl Operation.remaining 1

theorem producers_concat {κ : Type} (l : List (Operation κ)) (x : Operation κ) :
    producers (l ++ [x]) = x.remaining (producers l) := by
  rw [producers, List.foldl_concat]
  rfl

/-- As long as only producers are cloned and dropped that are there, they are the first one and the clones, less those
that were dropped. -/
theorem producers_add_drops {κ : Type} {l : List (Operation κ)}
    (h : ∀ m r, l = m ++ .cloneHandle :: r ∨ l = m ++ .dropHandle :: r → producers m ≠ 0) :
    producers l + l.countP (· matches .dropHandle) = 1 + l.countP (· matches .cloneHandle) := by
  induction l using List.reverseRecOn with
  | nil => rfl
  | append_singleton l x ih =>
    have hl : ∀ m r, l = m ++ .cloneHandle :: r ∨ l = m ++ .dropHandle :: r → producers m ≠ 0 := by
      intro m r hsplit
      exact h m (r ++ [x]) (hsplit.imp (by rintro rfl; simp) (by rintro rfl; simp))
    have hcount := ih hl
    rw [producers_concat, List.countP_append, List.countP_append]
    cases x with
    | cloneHandle =>
      have hleft : producers l ≠ 0 := h l [] (.inl rfl)
      rw [Operation.remaining, if_neg hleft]
      simp
      omega
    | dropHandle =>
      have hleft : producers l ≠ 0 := h l [] (.inr rfl)
      rw [Operation.remaining]
      simp
      omega
    | _ => simpa [Operation.remaining] using hcount

/-- A queue with its clock and its history. -/
structure Course (κ : Type) [LT κ] where
  now : Nat
  queue : Queue κ
  history : List (Entry κ)

namespace Course

variable {κ : Type} [LT κ]

def new (now base max : Nat) : Course κ := { now, queue := .new base max, history := [] }

/-- Nobody can send a request once all producers are gone. -/
def post (c : Course κ) (k : κ) (due : Nat) : Course κ :=
  if c.queue.handles = 0 then c
  else { c with queue := c.queue.enqueueAt k due, history := .posted k due :: c.history }

theorem tracks_post [DecidableEq κ] {c : Course κ} (h : c.queue.Tracks c.history) (k : κ) (due : Nat) :
    (c.post k due).queue.Tracks (c.post k due).history := by
  unfold post
  split
  · exact h
  · next hhandles => exact h.enqueueAt hhandles k due

theorem handles_post (c : Course κ) (k : κ) (due : Nat) : (c.post k due).queue.handles = c.queue.handles := by
  unfold post
  split
  · rfl
  · exact handles_enqueueAt c.queue k due

variable [DecidableEq κ] [DecidableLT κ] [KeyOrder κ]

def next (c : Course κ) : Operation κ → Course κ
  | .enqueue k => c.post k c.now
  | .enqueueAfter k millis => c.post k (c.now + millis)
  | .scheduleAfter k millis =>
    let due := c.now + millis
    { c with queue := c.queue.schedule k due, history := .scheduled k due :: c.history }
  | .retry k =>
    let due := c.now + Delay.wholeMillis (c.queue.nextDelay k)
    { c with queue := c.queue.retry c.now k, history := .scheduled k due :: c.history }
  | .forget k => { c with queue := c.queue.forget k }
  | .advance millis => { c with now := c.now + millis }
  | .cloneHandle => { c with queue := c.queue.cloneHandle }
  | .dropHandle => { c with queue := c.queue.dropHandle }
  | .poll =>
    let (k?, queue) := c.queue.poll c.now
    { c with queue, history := emitAll k?.toList (.absorbed :: c.history) }
  | .drain =>
    let (out, queue) := c.queue.drain c.now
    { c with queue, history := emitAll out (.absorbed :: c.history) }

def after (now base max : Nat) (l : List (Operation κ)) : Course κ := l.foldl next (new now base max)

theorem tracks_next {c : Course κ} (h : c.queue.Tracks c.history) (x : Operation κ) :
    (c.next x).queue.Tracks (c.next x).history := by
  cases x with
  | enqueue k => exact tracks_post h k c.now
  | enqueueAfter k millis => exact tracks_post h k (c.now + millis)
  | scheduleAfter k millis => exact h.schedule k (c.now + millis)
  | retry k => exact h.retry c.now k
  | forget k => exact h.congr rfl rfl rfl
  | advance millis => exact h
  | cloneHandle => exact h.cloneHandle
  | dropHandle => exact h.congr rfl rfl rfl
  | poll => exact h.poll c.now
  | drain => exact h.drain c.now

theorem tracks_after (now base max : Nat) (l : List (Operation κ)) :
    (after now base max l).queue.Tracks (after now base max l).history :=
  List.foldlRecOn l (motive := fun c => c.queue.Tracks c.history) next (Tracks.new base max)
    fun _ h x _ => tracks_next h x

theorem handles_next (c : Course κ) (x : Operation κ) : (c.next x).queue.handles = x.remaining c.queue.handles := by
  cases x with
  | enqueue k => exact handles_post c k c.now
  | enqueueAfter k millis => exact handles_post c k (c.now + millis)
  | scheduleAfter k millis => exact handles_schedule c.queue k (c.now + millis)
  | retry k => exact handles_schedule _ k _
  | cloneHandle =>
    change c.queue.cloneHandle.handles = if c.queue.handles = 0 then 0 else c.queue.handles + 1
    unfold Queue.cloneHandle
    split
    · assumption
    · rfl
  | forget | advance | dropHandle => rfl
  | poll => exact handles_poll c.queue c.now
  | drain => exact handles_absorb c.queue

theorem handles_foldl (c : Course κ) (l : List (Operation κ)) :
    (l.foldl next c).queue.handles = l.foldl Operation.remaining c.queue.handles := by
  induction l generalizing c with
  | nil => rfl
  | cons x l ih => rw [List.foldl_cons, List.foldl_cons, ih, handles_next]

theorem handles_after (now base max : Nat) (l : List (Operation κ)) :
    (after now base max l).queue.handles = producers l :=
  handles_foldl (new now base max) l

/-- The queue as a map from the keys that are wanted to the earliest times for which they were requested, while there
are so many producers. -/
structure Refines (c : Course κ) (n : Nat) : Prop where
  /-- The queue knows the requests that are not in the mailbox, and of each key the earliest one. -/
  index : ∀ k, c.queue.index.get? k = (taken k c.history).min?
  agenda : c.queue.agenda.Perm c.queue.index.entries
  mailbox : ∀ k due, due ∈ wanted k c.history ↔ (k, due) ∈ c.queue.mailbox ∨ due ∈ taken k c.history
  contains : ∀ k, c.queue.contains k = true ↔ taken k c.history ≠ []
  size : ∃ keys : List κ, keys.Nodup ∧ (∀ k, k ∈ keys ↔ taken k c.history ≠ []) ∧ c.queue.size = keys.length
  /-- To drain the queue is to poll it until nothing is due any more. -/
  polls : Polls c.now c.queue (c.queue.drain c.now).1 (c.queue.drain c.now).2
  once : (c.queue.drain c.now).1.Nodup
  /-- A key is handed out if the earliest time has come for which it was requested, in the mailbox or not. -/
  due : ∀ k, k ∈ (c.queue.drain c.now).1 ↔ ∃ due, (wanted k c.history).min? = some due ∧ due ≤ c.now
  pending : ∀ k, (c.queue.drain c.now).2.index.get? k =
    if k ∈ (c.queue.drain c.now).1 then none else (wanted k c.history).min?
  absorbed : (c.queue.drain c.now).2.mailbox = []
  handles : c.queue.handles = n
  ended : c.queue.ended = true ↔ n = 0 ∧ c.queue.mailbox = [] ∧ ∀ k, taken k c.history = []
  /-- A poll finds the end if nobody can request anything and all that was requested is handed out. -/
  finished : (c.queue.poll c.now).1 = none ∧ (c.queue.poll c.now).2.ended = true ↔
    n = 0 ∧ ∀ k, wanted k c.history = []

theorem refines_after (now base max : Nat) (l : List (Operation κ)) :
    (after now base max l).Refines (producers l) := by
  have h := tracks_after now base max l
  have hhandles := handles_after now base max l
  generalize after now base max l = c at h hhandles
  have hkeys (k : κ) : (c.queue.index.get? k).isSome = true ↔ taken k c.history ≠ [] := by
    rw [h.index, ← Option.ne_none_iff_isSome, ne_eq, List.min?_eq_none_iff]
  exact {
    index := h.index
    agenda := h.consistent.perm
    mailbox := h.mail
    contains := hkeys
    size := ⟨c.queue.index.keys, List.pairwise_map.2 (Dict.entries_pairwise_ne c.queue.index),
      fun k => Dict.mem_keys_iff.trans (hkeys k), (List.length_map _).symm⟩
    polls := polls_drain c.queue c.now
    once := h.absorb.consistent.nodup_emit c.now
    due := fun k => h.mem_drain
    pending := h.get?_drain c.now
    absorbed := mailbox_absorb c.queue
    handles := hhandles
    ended := hhandles ▸ h.ended_iff
    finished := hhandles ▸ h.finished_iff c.now }

/-- One key is put off and moved forward again by a clone of the producer, another one is requested when the clone is
gone, two are scheduled by the consumer, and one more is requested when no producer is left. -/
def requests : List (Operation String) :=
  [.enqueueAfter "a" 9, .poll, .cloneHandle, .enqueueAfter "a" 3, .dropHandle, .enqueue "b", .scheduleAfter "c" 4,
    .retry "d", .dropHandle, .enqueue "e", .advance 3]

theorem refines_after_requests :
    (after 0 5 1000 requests).Refines 0 ∧
      ((after 0 5 1000 requests).queue.drain 3).1 = ["b", "a"] ∧
      ((after 0 5 1000 requests).queue.drain 3).2.agenda = [("c", 4), ("d", 5)] :=
  ⟨refines_after 0 5 1000 requests, rfl, rfl⟩

end Course

end RolloutControl.Queue
