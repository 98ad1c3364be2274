import RolloutControl.Queue.Backoff
/-! What a backoff answers over any course of its use. From when it was made or last reset it goes through its sequence of
delays, and from the end of the sequence on it repeats the last one. It has no answer only if the sequence is empty. -/

namespace RolloutControl

namespace Delays

variable {delays : Delays} {m n d : Nat}

/-- The delay at this place of the sequence, or the last one where the sequence is over. -/
def held (delays : Delays) : Nat → Option Nat
  | 0 => delays.nth 0
  | n + 1 => delays.nth (n + 1) <|> delays.held n

theorem nth_eq_none_of_le (h : delays.nth m = none) (hle : m ≤ n) : delays.nth n = none := by
  induction hle with
  | refl => exact h
  | step _ ih => exact delays.ended _ ih

theorem held_of_nth (h : delays.nth n = some d) : delays.held n = some d := by
  cases n with
  | zero => exact h
  | succ n => simp [held, h]

theorem held_succ_of_ended (h : delays.nth (n + 1) = none) : delays.held (n + 1) = delays.held n := by
  simp [held, h]

/-- From the end of the sequence on it is the last delay. -/
theorem held_of_last (hlast : delays.nth m = some d) (hended : delays.nth (m + 1) = none) (hle : m ≤ n) :
    delays.held n = some d := by
  induction hle with
  | refl => exact held_of_nth hlast
  | step hle ih => rw [held_succ_of_ended (nth_eq_none_of_le hended (Nat.succ_le_succ hle)), ih]

theorem nth_zero_of_held (h : delays.held n = none) : delays.nth 0 = none := by
  induction n with
  | zero => exact h
  | succ n ih =>
    cases hnth : delays.nth (n + 1) with
    | none => exact ih (held_succ_of_ended hnth ▸ h)
    | some d => cases (held_of_nth hnth).symm.trans h

end Delays

namespace Backoff

@[simp] theorem delays_advance (b : Backoff) : b.advance.delays = b.delays := by
  unfold advance
  split <;> rfl

@[simp] theorem asked_advance (b : Backoff) : b.advance.asked = b.asked + 1 := by
  unfold advance
  split <;> rfl

@[simp] theorem last_advance (b : Backoff) : b.advance.last = b.next? := by
  unfold advance
  split
  · next h => exact h.symm
  · next h =>
    have hnone : b.delays.nth b.asked = none ∧ b.last = none := by simpa [next?] using h
    rw [h, hnone.2]

@[simp] theorem attempts_advance (b : Backoff) : b.advance.attempts = b.attempts + b.next?.toList.length := by
  unfold advance
  split <;> simp [*]

/-- What is asked of a backoff: its next delay, or to start again. -/
inductive Request
  | delay
  | reset

/-- How often a delay has been asked for since the last reset, if it was so often before. -/
def Request.recount (n : Nat) : Request → Nat
  | .delay => n + 1
  | .reset => 0

def asks (l : List Request) : Nat := l.foldl Request.recount 0

inductive Event
  | answered (delay : Option Nat)
  | reset

/-- The answers since the last reset, the last one first. -/
def answers : List Event → List (Option Nat)
  | [] => []
  | .answered delay :: l => delay :: answers l
  | .reset :: _ => []

structure Course where
  backoff : Backoff
  history : List Event

namespace Course

def new (delays : Delays) : Course := { backoff := { delays }, history := [] }

def next (c : Course) : Request → Course
  | .delay => { backoff := c.backoff.advance, history := .answered c.backoff.next? :: c.history }
  | .reset => { backoff := c.backoff.reset, history := .reset :: c.history }

def after (delays : Delays) (l : List Request) : Course := l.foldl next (new delays)

def before (delays : Delays) : Nat → Option Nat
  | 0 => none
  | n + 1 => delays.held n

/-- So many delays were asked for since the last reset, and the answers are what the sequence holds. -/
structure Follows (c : Course) (delays : Delays) (n : Nat) : Prop where
  delays_eq : c.backoff.delays = delays
  asked : c.backoff.asked = n
  last : c.backoff.last = before delays n
  attempts : c.backoff.attempts = ((answers c.history).filterMap id).length
  answers : (answers c.history).reverse = (List.range n).map delays.held

variable {c : Course} {delays : Delays} {n : Nat}

theorem follows_new (delays : Delays) : (new delays).Follows delays 0 := ⟨rfl, rfl, rfl, rfl, rfl⟩

theorem Follows.next? (h : c.Follows delays n) : c.backoff.next? = delays.held n := by
  rw [Backoff.next?, h.delays_eq, h.asked, h.last]
  cases n with
  | zero => simp [before, Delays.held]
  | succ n => rfl

theorem Follows.delay (h : c.Follows delays n) : (c.next .delay).Follows delays (n + 1) where
  delays_eq := (delays_advance _).trans h.delays_eq
  asked := by rw [next, asked_advance, h.asked]
  last := (last_advance _).trans h.next?
  attempts := by
    rw [next, attempts_advance, h.attempts]
    cases hnext : c.backoff.next? <;> simp [Backoff.answers]
  answers := by
    rw [List.range_succ, List.map_append, ← h.answers, List.map_singleton, ← h.next?]
    exact List.reverse_cons

theorem Follows.reset (h : c.Follows delays n) : (c.next .reset).Follows delays 0 :=
  ⟨h.delays_eq, rfl, rfl, rfl, rfl⟩

theorem Follows.next (h : c.Follows delays n) (x : Request) : (c.next x).Follows delays (x.recount n) := by
  cases x with
  | delay => exact h.delay
  | reset => exact h.reset

theorem Follows.foldl (h : c.Follows delays n) (l : List Request) :
    (l.foldl Course.next c).Follows delays (l.foldl Request.recount n) := by
  induction l generalizing c n with
  | nil => exact h
  | cons x l ih => exact ih (h.next x)

theorem follows_after (delays : Delays) (l : List Request) : (after delays l).Follows delays (asks l) :=
  (follows_new delays).foldl l

/-- What a backoff has answered since it was made or last reset, if it was asked so often. -/
structure Persists (c : Course) (delays : Delays) (n : Nat) : Prop where
  answered : (Backoff.answers c.history).length = n
  /-- As long as the sequence lasts, the answers are its delays in their order. -/
  lasting : ∀ i < n, ∀ d, delays.nth i = some d → (Backoff.answers c.history).reverse[i]? = some (some d)
  /-- From then on they are the last delay. -/
  repeated : ∀ i d, delays.nth i = some d → delays.nth (i + 1) = none →
    ∀ j < n, i ≤ j → (Backoff.answers c.history).reverse[j]? = some (some d)
  /-- No answer is missing, unless there is no delay at all. -/
  given : none ∈ Backoff.answers c.history → delays.nth 0 = none
  /-- Every delay that was handed out counts as an attempt. -/
  attempts : c.backoff.attempts = ((Backoff.answers c.history).filterMap id).length

/-- A backoff persists in its delays, in whatever order it is asked for them and reset. -/
theorem persists_after (delays : Delays) (l : List Request) : (after delays l).Persists delays (asks l) := by
  have h := follows_after delays l
  have hanswer {i : Nat} (hi : i < asks l) :
      (Backoff.answers (after delays l).history).reverse[i]? = some (delays.held i) := by
    rw [h.answers, List.getElem?_map, List.getElem?_range hi, Option.map_some]
  constructor
  · rw [← List.length_reverse, h.answers, List.length_map, List.length_range]
  · intro i hi d hd
    rw [hanswer hi, Delays.held_of_nth hd]
  · intro i d hlast hended j hj hle
    rw [hanswer hj, Delays.held_of_last hlast hended hle]
  · intro hmem
    rw [← List.mem_reverse, h.answers] at hmem
    obtain ⟨i, -, hheld⟩ := List.mem_map.1 hmem
    exact Delays.nth_zero_of_held hheld
  · exact h.attempts

/-- A sequence of a single delay is asked for more. -/
example : answers (after (.constant 7 1) [.delay, .reset, .delay, .delay]).history = [some 7, some 7] := rfl

end Course

end Backoff

end RolloutControl
