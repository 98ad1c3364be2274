import RolloutControl.Proofs.Simulation.Steady
import RolloutControl.Proofs.Workload.Run
/-! Snapshots after their rollout. What is on record is never written again, so a snapshot can change after
its revision has been rolled out exactly as long as no status says so. -/

namespace RolloutControl.Run

variable {s : Settings} {σ : Type} {w : Collaborators s σ} (run : Run w)

/-- What the snapshot of a revision holds when the revision is rolled out is all that later cycles ever
write into it. -/
def Frozen : Prop :=
  ∀ m n r l c, m < n → run.RollsOut m r l → run.Writes n r c → l.held r = some c

/-- Whenever a revision is rolled out, its snapshot holds the same. -/
def Determined : Prop :=
  ∀ m n r l k, run.RollsOut m r l → run.RollsOut n r k → l.held r = k.held r

/-- A cycle rolls out a revision without getting it on record, and when it is still not on record a
later cycle makes a copy of an encryption configuration that is not the one in the snapshot. -/
def Recuts : Prop :=
  ∃ m n r l, m < n ∧ run.RollsOut m r l ∧ (run.after m).latest ≠ r ∧ (run.before n).latest + 1 = r ∧
    (∃ x, .copied x ∈ run.log n) ∧ (run.before n).source ≠ l.held r

variable {run}

theorem frozen_of_not_recuts (h : ¬run.Recuts) : run.Frozen := by
  intro m n r l c hmn hroll hwrite
  obtain ⟨hr, hsource⟩ := hwrite.revision_eq
  by_contra hne
  have hunrecorded : (run.after m).latest ≠ r := by
    intro hrecorded
    have hmono := run.latest_le_before hmn
    omega
  have hcopied : ∃ x, .copied x ∈ run.log n := hwrite.imp fun x hx => hx.1
  have hother : (run.before n).source ≠ l.held r := by
    rw [hsource]
    exact fun he => hne he.symm
  exact h ⟨m, n, r, l, hmn, hroll, hunrecorded, hr.symm, hcopied, hother⟩

theorem Frozen.not_recuts (h : run.Frozen) : ¬run.Recuts := by
  rintro ⟨m, n, r, l, hmn, hroll, -, hlatest, ⟨x, hx⟩, hsource⟩
  obtain ⟨href, hcontents⟩ := (run.turn n).copied_mem hx
  have hwrite : run.Writes n r x.contents := ⟨x, hx, hlatest ▸ href, rfl⟩
  have hheld : l.held r = some x.contents := h m n r l x.contents hmn hroll hwrite
  exact hsource (hcontents.trans hheld.symm)

theorem Frozen.held_eq (h : run.Frozen) {m n : Nat} {r : Int} {l : Ledger} (hroll : run.RollsOut m r l)
    (hmn : m ≤ n) : (run.after n).held r = l.held r := by
  induction n, hmn using Nat.le_induction with
  | base => rw [hroll.held_eq]
  | succ n hmn ih =>
    rcases run.held_eq (n + 1) r with hkept | ⟨c, hwrite, hc⟩
    · rw [hkept, ← ih]
      exact congrFun (run.held_kept n) r
    · rw [hc, h m (n + 1) r l c (Nat.lt_succ_of_le hmn) hroll hwrite]

theorem Frozen.determined (h : run.Frozen) : run.Determined := by
  intro m n r l k hm hn
  rcases Nat.le_total m n with hmn | hnm
  · rw [← h.held_eq hm hmn, hn.held_eq]
  · rw [← h.held_eq hn hnm, hm.held_eq]

/-- Snapshots are immutable once their revision has been rolled out, and the revision tells which
configuration a replica runs with, exactly when no rollout that failed to get on record is repeated with
another configuration. -/
theorem frozen_iff_never_recut (run : Run w) :
    (run.Frozen ↔ ¬run.Recuts) ∧ (¬run.Recuts → run.Determined) :=
  ⟨⟨Frozen.not_recuts, frozen_of_not_recuts⟩, fun h => (frozen_of_not_recuts h).determined⟩

open Simulation

/-- Revision 1 is rolled out, but the status cannot be written. -/
def unrecorded : Steady {} :=
  ⟨{ Steady.blank "A" with failures := [(.updateStatus, ⟨"Failure", "timeout", "Timeout", 504⟩)] }, rfl, rfl⟩

def afterUnrecorded : Steady {} := (Steady.collaborators {}).after (Workload.cycle {}) unrecorded

def secretsAfterUnrecorded : Cache Secret := Cache.ofObjects [Steady.config "A", Steady.firstSnapshot "A"]

theorem afterUnrecorded_secrets : afterUnrecorded.1.view.secrets = secretsAfterUnrecorded := by
  decide +kernel

/-- Somebody replaces the encryption configuration, and deletes the config map of the operand. -/
def replaced : Steady {} :=
  ⟨{ afterUnrecorded.1 with view := { afterUnrecorded.1.view with
      secrets := Cache.put secretsAfterUnrecorded (Steady.config "B"), configMaps := ∅ } }, afterUnrecorded.2⟩

theorem replaced_held : ((Steady.collaborators {}).ledger replaced).held =
    ((Steady.collaborators {}).ledger afterUnrecorded).held := by
  funext r
  have hsecrets : replaced.1.view.secrets = Cache.put secretsAfterUnrecorded (Steady.config "B") := rfl
  rw [Steady.ledger_held, Steady.ledger_held, hsecrets, afterUnrecorded_secrets,
    (Cluster.stores_put secretsAfterUnrecorded (Steady.config "B")).within?_of_ne
      (Steady.snapshotName_ne_config r)]

theorem replaced_latest : ((Steady.collaborators {}).ledger replaced).latest =
    ((Steady.collaborators {}).ledger afterUnrecorded).latest := by
  decide +kernel

def recutRun : Run (Steady.collaborators {}) :=
  (undisturbed (Steady.collaborators {}) replaced).cons unrecorded replaced_latest replaced_held

/-- The revision that is not on record is cut again, and its snapshot is overwritten. -/
theorem unrecorded_snapshot_overwritten : ¬recutRun.Frozen := by
  intro h
  have hrolled : (recutRun.log 0).any (fun
    | .rolledOut d l => d.podLabel? "revision" = some (Text.integer 1) &&
      l.held 1 = some (Steady.config "A").contents
    | _ => false) = true := by decide +kernel
  have hcopied : (recutRun.log 1).any (fun
    | .copied _ => true
    | _ => false) = true := by decide +kernel
  obtain ⟨_ | _ | ⟨d, l⟩, hroll, hcheck⟩ := List.any_eq_true.1 hrolled
  · simp at hcheck
  · simp at hcheck
  obtain ⟨x | _ | _, hcopy, hx⟩ := List.any_eq_true.1 hcopied
  · obtain ⟨hlabel, hheld⟩ : _ ∧ _ := by simpa using hcheck
    refine h.not_recuts ⟨0, 1, 1, l, Nat.one_pos, ⟨d, hroll, hlabel⟩, by decide +kernel, by decide +kernel,
      ⟨x, hcopy⟩, ?_⟩
    rw [hheld]
    decide +kernel
  · simp at hx
  · simp at hx

end RolloutControl.Run
