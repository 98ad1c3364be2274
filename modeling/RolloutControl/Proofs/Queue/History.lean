import RolloutControl.Proofs.Queue.Consistency
/-! The history of a queue, and what it says about each key: when it was wanted since it was last handed out. The queue
remembers no more of this than the earliest time. -/

namespace RolloutControl.Queue

/-- What happens to a queue. The last entry of a history comes first. -/
inductive Entry (κ : Type)
  /-- A producer puts a request into the mailbox. -/
  | posted (k : κ) (due : Nat)
  /-- The consumer makes a key due itself. -/
  | scheduled (k : κ) (due : Nat)
  /-- The mailbox is emptied. -/
  | absorbed
  | emitted (k : κ)

variable {κ : Type} [DecidableEq κ]

/-- The due times for which a key was requested since it was last handed out. -/
def wanted (k : κ) : List (Entry κ) → List Nat
  | [] => []
  | .posted j due :: l | .scheduled j due :: l => if j = k then due :: wanted k l else wanted k l
  | .absorbed :: l => wanted k l
  | .emitted j :: l => if j = k then [] else wanted k l

/-- Those of the due times that are not in the mailbox any more. -/
def taken (k : κ) : List (Entry κ) → List Nat
  | [] => []
  | .posted _ _ :: l => taken k l
  | .scheduled j due :: l => if j = k then due :: taken k l else taken k l
  | .absorbed :: l => wanted k l
  | .emitted j :: l => if j = k then [] else taken k l

def emitAll (out : List κ) (l : List (Entry κ)) : List (Entry κ) := out.foldl (fun l k => .emitted k :: l) l

theorem wanted_emitAll (out : List κ) (k : κ) (l : List (Entry κ)) :
    wanted k (emitAll out l) = if k ∈ out then [] else wanted k l := by
  induction out generalizing l with
  | nil => simp [emitAll]
  | cons j r ih =>
    have hcons : emitAll (j :: r) l = emitAll r (.emitted j :: l) := rfl
    rw [hcons, ih]
    by_cases hj : j = k
    · subst hj
      simp [wanted]
    · simp [wanted, hj, Ne.symm hj]

theorem taken_emitAll (out : List κ) (k : κ) (l : List (Entry κ)) :
    taken k (emitAll out l) = if k ∈ out then [] else taken k l := by
  induction out generalizing l with
  | nil => simp [emitAll]
  | cons j r ih =>
    have hcons : emitAll (j :: r) l = emitAll r (.emitted j :: l) := rfl
    rw [hcons, ih]
    by_cases hj : j = k
    · subst hj
      simp [taken]
    · simp [taken, hj, Ne.symm hj]

theorem exists_min?_le {l : List Nat} {now : Nat} : (∃ due, l.min? = some due ∧ due ≤ now) ↔ ∃ due ∈ l, due ≤ now := by
  constructor
  · rintro ⟨due, hdue, hle⟩
    exact ⟨due, (List.min?_eq_some_iff.1 hdue).1, hle⟩
  · rintro ⟨due, hdue, hle⟩
    obtain ⟨first, hfirst⟩ := Option.isSome_iff_exists.1 (List.isSome_min?_of_mem hdue)
    exact ⟨first, hfirst, Nat.le_trans ((List.min?_eq_some_iff.1 hfirst).2 due hdue) hle⟩

theorem min?_congr {l m : List Nat} (h : ∀ n, n ∈ l ↔ n ∈ m) : l.min? = m.min? :=
  Option.ext fun n => by simp only [List.min?_eq_some_iff, h]

variable [LT κ]

structure Tracks (q : Queue κ) (l : List (Entry κ)) : Prop where
  consistent : q.Consistent
  index : ∀ k, q.index.get? k = (taken k l).min?
  mail : ∀ k due, due ∈ wanted k l ↔ (k, due) ∈ q.mailbox ∨ due ∈ taken k l

variable {q : Queue κ} {l : List (Entry κ)} {k : κ} {now : Nat}

theorem Tracks.new (base max : Nat) : (Queue.new (κ := κ) base max).Tracks [] where
  consistent := .new base max
  index _ := rfl
  mail := by simp [Queue.new, wanted, taken]

theorem Tracks.congr {p : Queue κ} (h : q.Tracks l) (hindex : p.index = q.index) (hagenda : p.agenda = q.agenda)
    (hmailbox : p.mailbox = q.mailbox) : p.Tracks l where
  consistent :=
    { mem_iff := hindex ▸ hagenda ▸ h.consistent.mem_iff
      distinct := hagenda ▸ h.consistent.distinct
      sorted := hagenda ▸ h.consistent.sorted }
  index := hindex ▸ h.index
  mail := hmailbox ▸ h.mail

theorem Tracks.enqueueAt (h : q.Tracks l) (hhandles : q.handles ≠ 0) (k : κ) (due : Nat) :
    (q.enqueueAt k due).Tracks (.posted k due :: l) := by
  rw [Queue.enqueueAt, if_neg hhandles]
  refine ⟨⟨h.consistent.mem_iff, h.consistent.distinct, h.consistent.sorted⟩, h.index, fun j t => ?_⟩
  by_cases hj : k = j
  · subst hj
    simp [wanted, taken, h.mail, or_assoc, or_comm]
  · simp [wanted, taken, h.mail, hj, Ne.symm hj]

theorem Tracks.cloneHandle (h : q.Tracks l) : q.cloneHandle.Tracks l := by
  unfold Queue.cloneHandle
  split
  · exact h
  · exact h.congr rfl rfl rfl

theorem Tracks.release {first rest : List (κ × Nat)} (h : q.Tracks l) (hmailbox : q.mailbox = [])
    (hsplit : q.agenda = first ++ rest) :
    Tracks { q with agenda := rest, index := (first.map (·.1)).foldl (fun i k => i.erase k) q.index }
      (emitAll (first.map (·.1)) l) where
  consistent := h.consistent.release hsplit
  index k := by
    rw [taken_emitAll]
    simp only [get?_foldl_erase, h.index]
    split <;> rfl
  mail k due := by
    rw [wanted_emitAll, taken_emitAll]
    split
    · simp [hmailbox]
    · simp [h.mail, hmailbox]

/-- Apart from the mailbox, the queue is empty exactly if no key is wanted. -/
theorem Tracks.ended_iff (h : q.Tracks l) :
    q.ended = true ↔ q.handles = 0 ∧ q.mailbox = [] ∧ ∀ k, taken k l = [] := by
  have hagenda : q.agenda = [] ↔ ∀ k, taken k l = [] := by
    rw [List.eq_nil_iff_forall_not_mem]
    simp only [Prod.forall, h.consistent.mem_iff, h.index, ← List.min?_eq_none_iff, Option.eq_none_iff_forall_ne_some]
  simp only [Queue.ended, Bool.and_eq_true, decide_eq_true_eq, List.isEmpty_iff, hagenda, and_assoc]

variable [DecidableLT κ] [KeyOrder κ]

theorem Tracks.schedule (h : q.Tracks l) (k : κ) (due : Nat) : (q.schedule k due).Tracks (.scheduled k due :: l) where
  consistent := h.consistent.schedule k due
  index j := by
    rw [get?_schedule]
    by_cases hj : k = j
    · subst hj
      simp [taken, h.index, List.min?_cons]
    · simp [taken, h.index, hj, Ne.symm hj]
  mail j t := by
    rw [mailbox_schedule]
    by_cases hj : k = j
    · subst hj
      simp [wanted, taken, h.mail, or_left_comm]
    · simp [wanted, taken, h.mail, hj]

theorem Tracks.retry (h : q.Tracks l) (now : Nat) (k : κ) :
    (q.retry now k).Tracks (.scheduled k (now + Delay.wholeMillis (q.nextDelay k)) :: l) := by
  have hfailed : Tracks { q with failures := q.failures.insert k (q.backoff k).advance } l := h.congr rfl rfl rfl
  exact hfailed.schedule k _

theorem Tracks.absorb (h : q.Tracks l) : q.absorb.Tracks (.absorbed :: l) where
  consistent := h.consistent.absorb
  index k := by
    rw [get?_absorb (h.index k), taken]
    refine min?_congr fun due => ?_
    simp [h.mail]
  mail k due := by simp [wanted, taken]

theorem Tracks.drain (h : q.Tracks l) (now : Nat) :
    (q.drain now).2.Tracks (emitAll (q.drain now).1 (.absorbed :: l)) :=
  h.absorb.release (mailbox_absorb q) List.takeWhile_append_dropWhile.symm

theorem Tracks.get?_absorb (h : q.Tracks l) (k : κ) : q.absorb.index.get? k = (wanted k l).min? :=
  h.absorb.index k

theorem Tracks.mem_drain (h : q.Tracks l) :
    k ∈ (q.drain now).1 ↔ ∃ due, (wanted k l).min? = some due ∧ due ≤ now := by
  rw [← h.get?_absorb]
  exact h.absorb.consistent.mem_emit

theorem Tracks.get?_drain (h : q.Tracks l) (now : Nat) (k : κ) :
    (q.drain now).2.index.get? k = if k ∈ (q.drain now).1 then none else (wanted k l).min? := by
  rw [← h.get?_absorb]
  exact get?_emit q.absorb now k

theorem Tracks.poll (h : q.Tracks l) (now : Nat) :
    (q.poll now).2.Tracks (emitAll (q.poll now).1.toList (.absorbed :: l)) := by
  have habsorb := h.absorb
  unfold Queue.poll
  dsimp only
  split
  · next e r hagenda =>
    split
    · have hsplit : q.absorb.agenda = [e] ++ r := hagenda
      exact habsorb.release (mailbox_absorb q) hsplit
    · exact habsorb
  · exact habsorb

theorem Tracks.exists_wanted_of_poll (h : q.Tracks l) (hpoll : (q.poll now).1 = some k) :
    ∃ due ∈ wanted k l, due ≤ now :=
  exists_min?_le.1 (h.mem_drain.1 (List.mem_of_mem_head? (fst_poll q now ▸ hpoll)))

theorem Tracks.lt_of_poll (h : q.Tracks l) (hpoll : (q.poll now).1 = none) {due : Nat} (hdue : due ∈ wanted k l) :
    now < due := by
  have hnone : (q.drain now).1 = [] := List.head?_eq_none_iff.1 (fst_poll q now ▸ hpoll)
  refine Nat.lt_of_not_le fun hle => ?_
  have hmem := h.mem_drain.2 (exists_min?_le.2 ⟨due, hdue, hle⟩)
  rw [hnone] at hmem
  exact nomatch hmem

/-- A poll finds the end if nobody can request anything and nothing is wanted any more. -/
theorem Tracks.finished_iff (h : q.Tracks l) (now : Nat) :
    (q.poll now).1 = none ∧ (q.poll now).2.ended = true ↔ q.handles = 0 ∧ ∀ k, wanted k l = [] := by
  have hended := (h.poll now).ended_iff
  rw [handles_poll, mailbox_poll] at hended
  constructor
  · rintro ⟨hnone, hover⟩
    rw [hnone] at hended
    obtain ⟨hhandles, -, hwanted⟩ := hended.1 hover
    exact ⟨hhandles, hwanted⟩
  · rintro ⟨hhandles, hwanted⟩
    have hnone : (q.poll now).1 = none := Option.eq_none_iff_forall_ne_some.2 fun k hk => by
      obtain ⟨due, hdue, -⟩ := h.exists_wanted_of_poll hk
      rw [hwanted] at hdue
      exact nomatch hdue
    rw [hnone] at hended
    exact ⟨hnone, hended.2 ⟨hhandles, rfl, hwanted⟩⟩

end RolloutControl.Queue
