import Mathlib.Data.List.Nodup
import RolloutControl.Queue.Basic
/-! What the index and the agenda of a queue have in common, and what is left of both when keys are handed out. -/

namespace RolloutControl.Queue

variable {κ : Type}

theorem perm_enter (k : κ) (due : Nat) (l : List (κ × Nat)) : (enter k due l).Perm ((k, due) :: l) := by
  induction l with
  | nil => exact .refl _
  | cons e r ih =>
    unfold enter
    split
    · exact .refl _
    · exact (ih.cons e).trans (.swap _ _ r)

theorem sorted_enter {k : κ} {due : Nat} {l : List (κ × Nat)} (h : l.Pairwise fun a b => a.2 ≤ b.2) :
    (enter k due l).Pairwise fun a b => a.2 ≤ b.2 := by
  induction l with
  | nil => exact List.pairwise_singleton _ _
  | cons e r ih =>
    obtain ⟨he, hr⟩ := List.pairwise_cons.1 h
    unfold enter
    split
    · next hlt =>
      refine List.pairwise_cons.2 ⟨fun d hd => ?_, h⟩
      rcases List.mem_cons.1 hd with rfl | hd
      · exact Nat.le_of_lt hlt
      · exact Nat.le_trans (Nat.le_of_lt hlt) (he d hd)
    · next hge =>
      refine List.pairwise_cons.2 ⟨fun d hd => ?_, ih hr⟩
      rcases List.mem_cons.1 ((perm_enter k due r).mem_iff.1 hd) with rfl | hd
      · exact Nat.le_of_not_lt hge
      · exact he d hd

theorem takeWhile_eq_filter {now : Nat} {l : List (κ × Nat)} (h : l.Pairwise fun a b => a.2 ≤ b.2) :
    l.takeWhile (fun e => e.2 ≤ now) = l.filter fun e => e.2 ≤ now := by
  induction l with
  | nil => rfl
  | cons e r ih =>
    obtain ⟨he, hr⟩ := List.pairwise_cons.1 h
    by_cases hdue : e.2 ≤ now
    · simp [hdue, ih hr]
    · have hlater : r.filter (fun e => e.2 ≤ now) = [] :=
        List.filter_eq_nil_iff.2 fun d hd hd' => hdue (Nat.le_trans (he d hd) (of_decide_eq_true hd'))
      simp [hdue, hlater]

variable [LT κ]

@[simp] theorem handles_enqueueAt (q : Queue κ) (k : κ) (due : Nat) : (q.enqueueAt k due).handles = q.handles := by
  unfold enqueueAt
  split <;> rfl

variable [DecidableEq κ]

theorem get?_foldl_erase (l : List κ) (d : Dict κ Nat) (k : κ) :
    (l.foldl (fun i k => i.erase k) d).get? k = if k ∈ l then none else d.get? k := by
  induction l generalizing d with
  | nil => simp
  | cons j r ih =>
    rw [List.foldl_cons, ih, Dict.get?_erase]
    by_cases hr : k ∈ r <;> by_cases hj : k = j <;> simp [hr, hj]

/-- The index and the agenda hold the same keys with the same due times, and the agenda is in their order. -/
structure Consistent (q : Queue κ) : Prop where
  mem_iff : ∀ k due, (k, due) ∈ q.agenda ↔ q.index.get? k = some due
  distinct : (q.agenda.map (·.1)).Nodup
  sorted : q.agenda.Pairwise fun a b => a.2 ≤ b.2

theorem Consistent.new (base max : Nat) : (Queue.new (κ := κ) base max).Consistent where
  mem_iff := by simp [Queue.new]
  distinct := by simp [Queue.new]
  sorted := by simp [Queue.new]

variable {q : Queue κ} {k : κ} {now : Nat}

theorem Consistent.perm [KeyOrder κ] (h : q.Consistent) : q.agenda.Perm q.index.entries := by
  have hentries : q.index.entries.Nodup :=
    (Dict.entries_pairwise_ne q.index).imp fun {a b} hne (he : a = b) => hne (congrArg Prod.fst he)
  refine (List.perm_ext_iff_of_nodup (List.Nodup.of_map _ h.distinct) hentries).2 fun e => ?_
  rw [h.mem_iff e.1 e.2, Dict.mem_entries_iff]

theorem Consistent.release {l r : List (κ × Nat)} (h : q.Consistent) (hsplit : q.agenda = l ++ r) :
    Consistent { q with agenda := r, index := (l.map (·.1)).foldl (fun i k => i.erase k) q.index } where
  mem_iff j due := by
    have hdistinct := h.distinct
    rw [hsplit, List.map_append, List.nodup_append] at hdistinct
    have hmem : q.index.get? j = some due ↔ (j, due) ∈ l ∨ (j, due) ∈ r := by
      rw [← h.mem_iff, hsplit, List.mem_append]
    simp only [get?_foldl_erase]
    split
    · next hj =>
      have hout : (j, due) ∉ r := fun hr => hdistinct.2.2 j hj j (List.mem_map_of_mem hr) rfl
      simp [hout]
    · next hj =>
      have hout : (j, due) ∉ l := fun hl => hj (List.mem_map_of_mem hl)
      simp [hmem, hout]
  distinct := by
    have hdistinct := h.distinct
    rw [hsplit, List.map_append] at hdistinct
    exact hdistinct.of_append_right
  sorted := by
    have hsorted := h.sorted
    rw [hsplit] at hsorted
    exact (List.pairwise_append.1 hsorted).2.1

theorem Consistent.fst_emit (h : q.Consistent) (now : Nat) :
    (q.emit now).1 = (q.agenda.filter fun e => e.2 ≤ now).map (·.1) :=
  congrArg (List.map _) (takeWhile_eq_filter h.sorted)

theorem Consistent.mem_emit (h : q.Consistent) :
    k ∈ (q.emit now).1 ↔ ∃ due, q.index.get? k = some due ∧ due ≤ now := by
  simp only [h.fst_emit, List.mem_map, List.mem_filter, decide_eq_true_eq, ← h.mem_iff]
  constructor
  · rintro ⟨⟨j, due⟩, ⟨he, hdue⟩, rfl⟩
    exact ⟨due, he, hdue⟩
  · rintro ⟨due, he, hdue⟩
    exact ⟨(k, due), ⟨he, hdue⟩, rfl⟩

theorem Consistent.nodup_emit (h : q.Consistent) (now : Nat) : (q.emit now).1.Nodup :=
  h.fst_emit now ▸ h.distinct.sublist (List.filter_sublist.map _)

theorem emit_of_takeWhile {now : Nat} (htake : q.agenda.takeWhile (fun e => e.2 ≤ now) = [])
    (hdrop : q.agenda.dropWhile (fun e => e.2 ≤ now) = q.agenda) : q.emit now = ([], q) := by
  unfold emit
  rw [htake, hdrop]
  rfl

theorem get?_emit (q : Queue κ) (now : Nat) (k : κ) :
    (q.emit now).2.index.get? k = if k ∈ (q.emit now).1 then none else q.index.get? k :=
  get?_foldl_erase _ _ k

variable [DecidableLT κ] [KeyOrder κ]

@[simp] theorem mailbox_schedule (q : Queue κ) (k : κ) (due : Nat) : (q.schedule k due).mailbox = q.mailbox := by
  unfold schedule
  split
  · split <;> rfl
  · rfl

@[simp] theorem handles_schedule (q : Queue κ) (k : κ) (due : Nat) : (q.schedule k due).handles = q.handles := by
  unfold schedule
  split
  · split <;> rfl
  · rfl

/-- The earlier one of two due times counts. -/
theorem get?_schedule (q : Queue κ) (k j : κ) (due : Nat) :
    (q.schedule k due).index.get? j =
      if j = k then some ((q.index.get? k).elim due (min due)) else q.index.get? j := by
  unfold schedule
  split
  · next old hold =>
    by_cases hdue : due ≤ old
    · simp only [hdue, hold, if_true, Dict.get?_insert, Option.elim_some, Nat.min_eq_left]
    · by_cases hj : j = k
      · subst hj
        simp [hdue, hold, Nat.min_eq_right (Nat.le_of_not_le hdue)]
      · simp [hdue, hj]
  · next hnone => simp [hnone]

/-- A key that is entered anew, whatever its due time was before. -/
theorem Consistent.reenter (h : q.Consistent) (k : κ) (due : Nat) :
    Consistent { q with
      index := q.index.insert k due
      agenda := enter k due (q.agenda.filter fun e => e.1 ≠ k) } where
  mem_iff j t := by
    simp only [(perm_enter k due _).mem_iff, List.mem_cons, List.mem_filter, Dict.get?_insert, h.mem_iff,
      Prod.mk.injEq, ne_eq, decide_eq_true_eq]
    by_cases hj : j = k <;> simp [hj, eq_comm]
  distinct := by
    refine ((perm_enter k due _).map _).nodup_iff.2 (List.nodup_cons.2 ⟨?_, ?_⟩)
    · simp
    · exact h.distinct.sublist (List.filter_sublist.map _)
  sorted := sorted_enter (h.sorted.filter _)

theorem Consistent.schedule (h : q.Consistent) (k : κ) (due : Nat) : (q.schedule k due).Consistent := by
  unfold Queue.schedule
  split
  · split
    · exact h.reenter k due
    · exact h
  · next hnone =>
    have hout : ∀ e ∈ q.agenda, decide (e.1 ≠ k) = true := by
      rintro ⟨j, t⟩ he
      refine decide_eq_true fun (hj : j = k) => ?_
      have hfound := (h.mem_iff j t).1 he
      rw [hj, hnone] at hfound
      exact nomatch hfound
    simpa only [List.filter_eq_self.2 hout] using h.reenter k due

theorem absorb_keeps {P : Queue κ → Prop} (hq : P { q with mailbox := [] })
    (hstep : ∀ p k due, P p → P (p.schedule k due)) : P q.absorb :=
  List.foldlRecOn q.mailbox _ hq fun p hp e _ => hstep p e.1 e.2 hp

@[simp] theorem mailbox_absorb (q : Queue κ) : q.absorb.mailbox = [] :=
  absorb_keeps (P := fun p => p.mailbox = []) rfl fun p k due hp => (mailbox_schedule p k due).trans hp

@[simp] theorem handles_absorb (q : Queue κ) : q.absorb.handles = q.handles :=
  absorb_keeps (P := fun p => p.handles = q.handles) rfl fun p k due hp => (handles_schedule p k due).trans hp

theorem Consistent.absorb (h : q.Consistent) : q.absorb.Consistent :=
  absorb_keeps ⟨h.mem_iff, h.distinct, h.sorted⟩ fun _ k due hp => hp.schedule k due

theorem absorb_of_mailbox (h : q.mailbox = []) : q.absorb = q := by
  obtain ⟨index, agenda, mailbox, handles, base, max, grow, failures⟩ := q
  obtain rfl : mailbox = [] := h
  rfl

/-- The earliest one of the due times that wait in the mailbox and of those that came before. -/
theorem get?_absorb {k : κ} {l : List Nat} (h : q.index.get? k = l.min?) :
    q.absorb.index.get? k = (((q.mailbox.filter fun e => e.1 = k).map (·.2)).reverse ++ l).min? := by
  have hfold (b : List (κ × Nat)) (p : Queue κ) (l : List Nat) (hp : p.index.get? k = l.min?) :
      (b.foldl (fun q r => q.schedule r.1 r.2) p).index.get? k =
        (((b.filter fun e => e.1 = k).map (·.2)).reverse ++ l).min? := by
    induction b generalizing p l with
    | nil => exact hp
    | cons e r ih =>
      rw [List.foldl_cons]
      by_cases hk : e.1 = k
      · have hmin : (p.schedule e.1 e.2).index.get? k = (e.2 :: l).min? := by
          rw [get?_schedule, if_pos hk.symm, hk, hp, List.min?_cons]
        simpa [hk] using ih _ _ hmin
      · have hsame : (p.schedule e.1 e.2).index.get? k = l.min? := by
          rw [get?_schedule, if_neg (Ne.symm hk), hp]
        simpa [hk] using ih _ _ hsame
  exact hfold q.mailbox _ l h

theorem fst_poll (q : Queue κ) (now : Nat) : (q.poll now).1 = (q.drain now).1.head? := by
  unfold poll drain emit
  dsimp only
  cases q.absorb.agenda with
  | nil => rfl
  | cons e r => by_cases hdue : e.2 ≤ now <;> simp [hdue]

@[simp] theorem mailbox_poll (q : Queue κ) (now : Nat) : (q.poll now).2.mailbox = [] := by
  unfold poll
  dsimp only
  split
  · split <;> exact mailbox_absorb q
  · exact mailbox_absorb q

@[simp] theorem handles_poll (q : Queue κ) (now : Nat) : (q.poll now).2.handles = q.handles := by
  unfold poll
  dsimp only
  split
  · split <;> exact handles_absorb q
  · exact handles_absorb q

/-- Polls at one instant until nothing is due any more, with what they hand out. -/
inductive Polls (now : Nat) : Queue κ → List κ → Queue κ → Prop
  | done {q : Queue κ} (h : (q.poll now).1 = none) : Polls now q [] (q.poll now).2
  | next {q q' : Queue κ} {k : κ} {l : List κ} (h : (q.poll now).1 = some k) (hrest : Polls now (q.poll now).2 l q') :
    Polls now q (k :: l) q'

theorem poll_absorb (q : Queue κ) (now : Nat) : q.absorb.poll now = q.poll now := by
  unfold poll
  rw [absorb_of_mailbox (mailbox_absorb q)]

theorem polls_emit (h : q.mailbox = []) (now : Nat) : Polls now q (q.emit now).1 (q.emit now).2 := by
  obtain ⟨l, hl⟩ : ∃ l, q.agenda = l := ⟨_, rfl⟩
  induction l generalizing q with
  | nil =>
    have hpoll : q.poll now = (none, q) := by simp [poll, absorb_of_mailbox h, hl]
    have hemit : q.emit now = ([], q) := emit_of_takeWhile (by simp [hl]) (by simp [hl])
    have hdone : Polls now q [] (q.poll now).2 := .done (congrArg Prod.fst hpoll)
    rwa [hemit, ← congrArg Prod.snd hpoll]
  | cons e r ih =>
    by_cases hdue : e.2 ≤ now
    · obtain ⟨p, hp⟩ : ∃ p, p = { q with agenda := r, index := q.index.erase e.1 } := ⟨_, rfl⟩
      have hpoll : q.poll now = (some e.1, p) := by simp [poll, absorb_of_mailbox h, hl, hdue, hp]
      have hemit : q.emit now = (e.1 :: (p.emit now).1, (p.emit now).2) := by simp [emit, hl, hdue, hp]
      have hrest : Polls now p (p.emit now).1 (p.emit now).2 := ih (by rw [hp, h]) (by rw [hp])
      rw [hemit]
      exact .next (congrArg Prod.fst hpoll) (by rwa [congrArg Prod.snd hpoll])
    · have hpoll : q.poll now = (none, q) := by simp [poll, absorb_of_mailbox h, hl, hdue]
      have hemit : q.emit now = ([], q) := emit_of_takeWhile (by simp [hl, hdue]) (by simp [hl, hdue])
      have hdone : Polls now q [] (q.poll now).2 := .done (congrArg Prod.fst hpoll)
      rwa [hemit, ← congrArg Prod.snd hpoll]

/-- To drain a queue is to poll it until nothing is due any more. -/
theorem polls_drain (q : Queue κ) (now : Nat) : Polls now q (q.drain now).1 (q.drain now).2 := by
  have hpolls : Polls now q.absorb (q.drain now).1 (q.drain now).2 := polls_emit (mailbox_absorb q) now
  generalize (q.drain now).1 = l, (q.drain now).2 = q' at hpolls ⊢
  cases hpolls with
  | done h =>
    rw [poll_absorb] at h ⊢
    exact .done h
  | next h hrest =>
    rw [poll_absorb] at h hrest
    exact .next h hrest

end RolloutControl.Queue
