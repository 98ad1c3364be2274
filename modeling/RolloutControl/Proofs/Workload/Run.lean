import Mathlib.Data.Nat.Init
import Mathlib.Logic.Function.Iterate
import RolloutControl.Proofs.Workload.Turn
/-! Runs of cycles. Only a cycle writes snapshots and the recorded revision, and between two cycles
everything else may change. The recorded revision never goes back, and a cycle writes into the snapshot of
the next revision only. -/

namespace RolloutControl

theorem Copying.copied_mem {s : Settings} {l m : Ledger} {r : Int} {y : Except Error Unit}
    {log : List Deed} (h : Copying s l r y log m) {x : Secret} (hx : .copied x ∈ log) :
    objectRef x = snapshotRef s r ∧ l.source = some x.contents := by
  cases h with
  | copied z hz hsource =>
    obtain rfl : x = z := by simpa using hx
    exact ⟨hz, hsource⟩
  | _ => simp at hx

theorem Copying.held_eq {s : Settings} {l m : Ledger} {r : Int} {y : Except Error Unit}
    {log : List Deed} (h : Copying s l r y log m) (q : Int) :
    m.held q = l.held q ∨ ∃ x, .copied x ∈ log ∧ objectRef x = snapshotRef s q ∧ m.held q = some x.contents := by
  cases h with
  | copied x hx hsource =>
    by_cases hq : q = r
    · subst hq
      exact .inr ⟨x, by simp, hx, by simp⟩
    · exact .inl (by simp [Function.update_of_ne hq])
  | _ => exact .inl rfl

theorem Prepared.copied_mem {s : Settings} {l m : Ledger} {r : Int} {log : List Deed}
    (h : Prepared s l r log m) {x : Secret} (hx : .copied x ∈ log) :
    objectRef x = snapshotRef s (l.latest + 1) ∧ l.source = some x.contents := by
  cases h with
  | again => simp at hx
  | cut h => exact h.copied_mem hx

theorem Prepared.held_eq {s : Settings} {l m : Ledger} {r : Int} {log : List Deed}
    (h : Prepared s l r log m) (q : Int) :
    m.held q = l.held q ∨ ∃ x, .copied x ∈ log ∧ objectRef x = snapshotRef s q ∧ m.held q = some x.contents := by
  cases h with
  | again => exact .inl rfl
  | cut h => exact h.held_eq q

theorem Prepared.not_rolledOut {s : Settings} {l m k : Ledger} {r : Int} {log : List Deed}
    (h : Prepared s l r log m) {d : Deployment} : .rolledOut d k ∉ log := by
  cases h with
  | again => simp
  | cut h => cases h <;> simp

theorem Prepared.not_refused {s : Settings} {l m : Ledger} {r : Int} {log : List Deed}
    (h : Prepared s l r log m) {x : Secret} : .refused x ∉ log := by
  cases h with
  | again => simp
  | cut h => cases h <;> simp

theorem Prepared.revision_ge {s : Settings} {l m : Ledger} {r : Int} {log : List Deed}
    (h : Prepared s l r log m) : l.latest ≤ r := by
  cases h with
  | again => exact Int.le_refl _
  | cut => omega

namespace Turn

variable {s : Settings} {l m k : Ledger} {log : List Deed}

theorem copied_mem (h : Turn s l log m) {x : Secret} (hx : .copied x ∈ log) :
    objectRef x = snapshotRef s (l.latest + 1) ∧ l.source = some x.contents := by
  cases h with
  | idle => simp at hx
  | refused => simp at hx
  | failed h => exact h.copied_mem hx
  | rolledOut h => exact h.copied_mem (by simpa using hx)

theorem held_eq (h : Turn s l log m) (q : Int) :
    m.held q = l.held q ∨ ∃ x, .copied x ∈ log ∧ objectRef x = snapshotRef s q ∧ m.held q = some x.contents := by
  cases h with
  | idle => exact .inl rfl
  | refused => exact .inl rfl
  | failed h => exact h.held_eq q
  | rolledOut h =>
    rcases h.held_eq q with hkept | ⟨x, hx, href, hheld⟩
    · exact .inl hkept
    · exact .inr ⟨x, by simp [hx], href, hheld⟩

/-- A rollout is the last thing that a cycle does, apart from recording it. -/
theorem of_rolledOut_mem (h : Turn s l log m) {d : Deployment} (hd : .rolledOut d k ∈ log) :
    ∃ r n log' j, Prepared s l r log' j ∧ d.IsFor s r l.source ∧ k = j.run (Carried.ofDeployment s d) ∧
      m = k.record n ∧ (n = l.latest ∨ n = r) := by
  cases h with
  | idle => simp at hd
  | refused => simp at hd
  | failed h => exact absurd hd h.not_rolledOut
  | @rolledOut r log' j h e he n hn =>
    rcases List.mem_append.1 hd with hd | hd
    · exact absurd hd h.not_rolledOut
    · obtain ⟨rfl, rfl⟩ := Deed.rolledOut.inj (List.mem_singleton.1 hd)
      exact ⟨r, n, log', j, h, he, rfl, rfl, hn⟩

/-- The recorded revision never goes back. -/
theorem latest_le (h : Turn s l log m) : l.latest ≤ m.latest := by
  cases h with
  | idle => exact Int.le_refl _
  | refused => exact Int.le_refl _
  | failed h => exact Int.le_of_eq h.frame.latest.symm
  | rolledOut h hd hn =>
    rcases hn with rfl | rfl
    · exact Int.le_refl _
    · exact h.revision_ge

end Turn

/-- A run of cycles, each of which finds the cluster as somebody else has left it after the one before.
Anything may be changed in between, except what only the operator writes. -/
structure Run {s : Settings} {σ : Type} (w : Collaborators s σ) where
  start : Nat → σ
  latest_kept : ∀ n, (w.ledger (start (n + 1))).latest =
    (w.ledger (w.after (Workload.cycle s) (start n))).latest
  held_kept : ∀ n, (w.ledger (start (n + 1))).held =
    (w.ledger (w.after (Workload.cycle s) (start n))).held

namespace Run

variable {s : Settings} {σ : Type} {w : Collaborators s σ} (run : Run w)

def undisturbed (w : Collaborators s σ) (a : σ) : Run w where
  start n := (w.after (Workload.cycle s))^[n] a
  latest_kept n := by rw [Function.iterate_succ_apply']
  held_kept n := by rw [Function.iterate_succ_apply']

theorem undisturbed_succ (w : Collaborators s σ) (a : σ) (n : Nat) :
    (undisturbed w a).start (n + 1) = w.after (Workload.cycle s) ((undisturbed w a).start n) :=
  Function.iterate_succ_apply' _ n a

def cons (a : σ) (hlatest : (w.ledger (run.start 0)).latest = (w.ledger (w.after (Workload.cycle s) a)).latest)
    (hheld : (w.ledger (run.start 0)).held = (w.ledger (w.after (Workload.cycle s) a)).held) : Run w where
  start
    | 0 => a
    | n + 1 => run.start n
  latest_kept
    | 0 => hlatest
    | n + 1 => run.latest_kept n
  held_kept
    | 0 => hheld
    | n + 1 => run.held_kept n

def before (n : Nat) : Ledger := w.ledger (run.start n)

def after (n : Nat) : Ledger := w.ledger (w.after (Workload.cycle s) (run.start n))

def log (n : Nat) : List Deed := w.deeds (Workload.cycle s) (run.start n)

/-- A cycle applies the deployment of a revision, and `l` is the ledger at that moment. -/
def RollsOut (n : Nat) (r : Int) (l : Ledger) : Prop :=
  ∃ d, .rolledOut d l ∈ run.log n ∧
    d.podLabel? s.encryption.revisionLabel = some (Text.integer r)

/-- A cycle writes the snapshot of a revision. -/
def Writes (n : Nat) (r : Int) (c : Secret.Contents) : Prop :=
  ∃ x, .copied x ∈ run.log n ∧ objectRef x = snapshotRef s r ∧ x.contents = c

theorem turn (n : Nat) : Turn s (run.before n) (run.log n) (run.after n) := w.cycle_turn (run.start n)

theorem latest_mono {m n : Nat} (h : m ≤ n) : (run.before m).latest ≤ (run.before n).latest := by
  induction n, h using Nat.le_induction with
  | base => exact Int.le_refl _
  | succ n _ ih =>
    have hturn : (run.before n).latest ≤ (run.after n).latest := (run.turn n).latest_le
    have hkept : (run.before (n + 1)).latest = (run.after n).latest := run.latest_kept n
    omega

theorem latest_le_before {m n : Nat} (h : m < n) : (run.after m).latest ≤ (run.before n).latest := by
  have hkept : (run.before (m + 1)).latest = (run.after m).latest := run.latest_kept m
  have hmono : (run.before (m + 1)).latest ≤ (run.before n).latest := run.latest_mono h
  omega

theorem Writes.revision_eq {run : Run w} {n : Nat} {r : Int} {c : Secret.Contents} (h : run.Writes n r c) :
    r = (run.before n).latest + 1 ∧ (run.before n).source = some c := by
  obtain ⟨x, hx, href, rfl⟩ := h
  obtain ⟨hnext, hsource⟩ := (run.turn n).copied_mem hx
  have hsame : snapshotRef s r = snapshotRef s ((run.before n).latest + 1) := href.symm.trans hnext
  exact ⟨snapshotRef_injective hsame, hsource⟩

theorem held_eq (n : Nat) (r : Int) :
    (run.after n).held r = (run.before n).held r ∨ ∃ c, run.Writes n r c ∧ (run.after n).held r = some c := by
  rcases (run.turn n).held_eq r with hkept | ⟨x, hx, href, hheld⟩
  · exact .inl hkept
  · have hwrite : run.Writes n r x.contents := ⟨x, hx, href, rfl⟩
    exact .inr ⟨x.contents, hwrite, hheld⟩

theorem RollsOut.held_eq {run : Run w} {n : Nat} {r : Int} {l : Ledger} (h : run.RollsOut n r l) :
    l.held = (run.after n).held := by
  obtain ⟨d, hd, -⟩ := h
  obtain ⟨q, n, log, j, -, -, rfl, hafter, -⟩ := (run.turn n).of_rolledOut_mem hd
  rw [hafter]
  rfl

end Run

end RolloutControl
