import RolloutControl.Proofs.Simulation.Steady
import RolloutControl.Proofs.Workload.Run
/-! Which encryption configuration a rollout mounts. As long as every rollout mounts the configuration as it
is at that moment, the digest that the deployment carries is the digest of the recorded snapshot, so a
change of the configuration is noticed as long as the deployment is there and runs the recorded revision. -/

namespace RolloutControl

/-- A deployment that runs the recorded revision carries the digest of its snapshot. -/
def Ledger.Faithful (l : Ledger) : Prop :=
  ∀ c, l.running = some c → c.label = some (Text.integer l.latest) →
    c.digest = some (configDigest (l.held l.latest))

/-- What a cycle rolls out mounts the encryption configuration. -/
def CurrentAt (s : Settings) (log : List Deed) : Prop :=
  ∀ d k r, .rolledOut d k ∈ log → d.podLabel? s.encryption.revisionLabel = some (Text.integer r) →
    k.held r = k.source

/-- A way to miss the encryption configuration: either it is gone while a snapshot is left behind for the
revision that is cut, or the recorded revision is rolled out with another one, since the digests that
would tell are those of another revision or of no deployment, or happen to be the same. -/
def Ledger.Misses (l : Ledger) (r : Int) : Prop :=
  (r = l.latest + 1 ∧ l.source = none ∧ l.held r ≠ none) ∨
    (r = l.latest ∧ l.source ≠ l.held r ∧ ∀ c, l.running = some c →
      c.label = some (Text.integer r) → configDigest l.source = configDigest (l.held r))

theorem Copying.held_latest {s : Settings} {l m : Ledger} {y : Except Error Unit} {log : List Deed}
    (h : Copying s l (l.latest + 1) y log m) : m.held l.latest = l.held l.latest := by
  cases h with
  | copied => exact Function.update_of_ne (by omega) _ _
  | _ => rfl

/-- A cycle arrives at the encryption configuration unless it misses it. -/
theorem Prepared.held_eq_source_iff {s : Settings} {l m : Ledger} {r : Int} {log : List Deed}
    (h : Prepared s l r log m) (hs : s.MountsConfig) (hl : l.Faithful) :
    m.held r = m.source ↔ ¬l.Misses r := by
  rw [h.frame.source]
  cases h with
  | again hagain =>
    have hdigest (c : Carried) (hc : l.running = some c) (hlabel : c.label = some (Text.integer l.latest)) :
        configDigest l.source = configDigest (l.held l.latest) :=
      Option.some.inj ((hagain hs c hc).symm.trans (hl c hc hlabel))
    constructor
    · rintro h (⟨hr, -⟩ | ⟨-, hne, -⟩)
      · omega
      · exact hne h.symm
    · intro h
      by_contra hne
      exact h (.inr ⟨rfl, fun he => hne he.symm, hdigest⟩)
  | cut h =>
    cases h with
    | nothing hnone =>
      rw [hnone]
      constructor
      · rintro h (⟨-, -, hheld⟩ | ⟨hr, -⟩)
        · exact hheld h
        · omega
      · intro h
        by_contra hne
        exact h (.inl ⟨rfl, hnone, hne⟩)
    | copied x hx hsource =>
      rw [hsource]
      constructor
      · rintro - (⟨-, hnone, -⟩ | ⟨hr, -⟩)
        · rw [hsource] at hnone
          exact absurd hnone (Option.some_ne_none _)
        · omega
      · intro
        simp

theorem Deployment.IsFor.revision_eq {d : Deployment} {s : Settings} {q r : Int}
    {c : Option Secret.Contents} (h : d.IsFor s q c)
    (hr : d.podLabel? s.encryption.revisionLabel = some (Text.integer r)) : q = r :=
  Text.integer_injective (Option.some.inj (h.label.symm.trans hr))

theorem Turn.faithful {s : Settings} {l m : Ledger} {log : List Deed} (h : Turn s l log m)
    (hs : s.MountsConfig) (hl : l.Faithful) (hcurrent : CurrentAt s log) : m.Faithful := by
  cases h with
  | idle => exact hl
  | refused => exact hl
  | failed h =>
    cases h with
    | again => exact hl
    | cut h =>
      intro c hc hlabel
      rw [h.frame.running] at hc
      rw [h.frame.latest] at hlabel ⊢
      rw [h.held_latest]
      exact hl c hc hlabel
  | @rolledOut r log j h d hd n hn =>
    intro c hc hlabel
    obtain rfl := Option.some.inj hc
    -- the deployment runs the recorded revision only if that is the one which has been rolled out
    obtain rfl : r = n := hd.revision_eq hlabel
    rw [hd.digest hs]
    have hheld : j.held r = j.source :=
      hcurrent d (j.run (Carried.ofDeployment s d)) r (by simp) hd.label
    change some (configDigest l.source) = some (configDigest (j.held r))
    rw [hheld, h.frame.source]

theorem Turn.not_rolledOut_of_refused {s : Settings} {l m k : Ledger} {log : List Deed}
    (h : Turn s l log m) {x : Secret} (hx : .refused x ∈ log) (d : Deployment) :
    .rolledOut d k ∉ log := by
  intro hd
  cases h with
  | idle => simp at hx
  | refused => simp at hd
  | failed h => exact h.not_rolledOut hd
  | rolledOut h => exact h.not_refused (by simpa using hx)

/-- A run in which the operand mounts the encryption configuration, nothing is deployed at first, and
between two cycles the deployment may vanish but is not changed. -/
structure OperandRun {s : Settings} {σ : Type} (w : Collaborators s σ) extends Run w where
  mounts : s.MountsConfig
  nothing_running : (w.ledger (start 0)).running = none
  running_kept : ∀ n, (w.ledger (start (n + 1))).running = none ∨
    (w.ledger (start (n + 1))).running =
      (w.ledger (w.after (Workload.cycle s) (start n))).running

namespace OperandRun

variable {s : Settings} {σ : Type} {w : Collaborators s σ} (run : OperandRun w)

/-- Whatever is rolled out mounts the encryption configuration as it is at that moment, if there is
one. -/
def Current : Prop := ∀ n r l, run.RollsOut n r l → l.held r = l.source

/-- A cycle rolls out a revision although it misses the encryption configuration. -/
def Strays (n : Nat) : Prop := ∃ r l, run.RollsOut n r l ∧ (run.before n).Misses r

variable {run}

theorem rollsOut_current_iff {n : Nat} {r : Int} {l : Ledger} (h : run.RollsOut n r l)
    (hfaithful : (run.before n).Faithful) : l.held r = l.source ↔ ¬(run.before n).Misses r := by
  obtain ⟨d, hd, hlabel⟩ := h
  obtain ⟨q, n, log, j, hprepared, hfor, rfl, -, -⟩ := (run.turn n).of_rolledOut_mem hd
  obtain rfl := hfor.revision_eq hlabel
  exact hprepared.held_eq_source_iff run.mounts hfaithful

theorem faithful_succ {n : Nat} (h : (run.before n).Faithful) (hcurrent : CurrentAt s (run.log n)) :
    (run.before (n + 1)).Faithful := by
  have hafter := (run.turn n).faithful run.mounts h hcurrent
  intro c hc hlabel
  have hlatest : (run.before (n + 1)).latest = (run.after n).latest := run.latest_kept n
  have hheld : (run.before (n + 1)).held = (run.after n).held := run.held_kept n
  rw [hlatest] at hlabel ⊢
  rw [hheld]
  rcases run.running_kept n with hnone | hkept
  · exact absurd (hc.symm.trans hnone) (Option.some_ne_none c)
  · exact hafter c (hkept.symm.trans hc) hlabel

theorem faithful_of_currentAt (run : OperandRun w)
    (h : ∀ n, (run.before n).Faithful → CurrentAt s (run.log n)) (n : Nat) :
    (run.before n).Faithful := by
  induction n with
  | zero => exact fun c hc => absurd (hc.symm.trans run.nothing_running) (Option.some_ne_none c)
  | succ n ih => exact faithful_succ ih (h n ih)

/-- Every rollout mounts the encryption configuration of that moment exactly when no cycle strays, and
nothing is rolled out whose snapshot could not be written. -/
theorem current_iff_never_strays (run : OperandRun w) :
    (run.Current ↔ ∀ n, ¬run.Strays n) ∧
      ∀ n x, .refused x ∈ run.log n → ∀ d l, .rolledOut d l ∉ run.log n := by
  refine ⟨⟨fun h n => ?_, fun h n r l hroll => ?_⟩, fun n x hx d l => ?_⟩
  · have hfaithful : ∀ n, (run.before n).Faithful :=
      faithful_of_currentAt run fun n _ d k r hd hlabel => h n r k ⟨d, hd, hlabel⟩
    rintro ⟨r, l, hroll, hmiss⟩
    have hcurrent : l.held r = l.source := h n r l hroll
    exact (rollsOut_current_iff hroll (hfaithful n)).1 hcurrent hmiss
  · -- the cycles before this one have not strayed either, so the digests can be trusted
    have hfaithful : ∀ n, (run.before n).Faithful := by
      refine faithful_of_currentAt run fun n hn d k r hd hlabel => ?_
      have hroll : run.RollsOut n r k := ⟨d, hd, hlabel⟩
      exact (rollsOut_current_iff hroll hn).2 fun hmiss => h n ⟨r, k, hroll, hmiss⟩
    have hkeeps : ¬(run.before n).Misses r := fun hmiss => h n ⟨r, l, hroll, hmiss⟩
    exact (rollsOut_current_iff hroll (hfaithful n)).2 hkeeps
  · exact (run.turn n).not_rolledOut_of_refused hx d

open Simulation

def undeployed : Steady {} :=
  ⟨{ Steady.blank "A" with
    refusals := fun k => if k = .deployment ∨ k = .configMap then some "denied" else none }, rfl, rfl⟩

def afterUndeployed : Steady {} := (Steady.collaborators {}).after (Workload.cycle {}) undeployed

def secretsAfterUndeployed : Cache Secret :=
  Cache.ofObjects [Steady.config "A", Steady.firstSnapshot "A"]

theorem afterUndeployed_secrets : afterUndeployed.1.view.secrets = secretsAfterUndeployed := by
  decide +kernel

def withdrawn : Steady {} :=
  ⟨{ afterUndeployed.1 with
    refusals := fun _ => none
    view := { afterUndeployed.1.view with secrets := Dict.erase secretsAfterUndeployed Steady.configRef } },
    afterUndeployed.2⟩

theorem withdrawn_held : ((Steady.collaborators {}).ledger withdrawn).held =
    ((Steady.collaborators {}).ledger afterUndeployed).held := by
  funext r
  have hsecrets : withdrawn.1.view.secrets = Dict.erase secretsAfterUndeployed Steady.configRef := rfl
  rw [Steady.ledger_held, Steady.ledger_held, hsecrets, afterUndeployed_secrets,
    Cluster.within?_erase_of_ne _ (Steady.snapshotName_ne_config r)]

theorem withdrawn_running : ((Steady.collaborators {}).ledger withdrawn).running =
    ((Steady.collaborators {}).ledger afterUndeployed).running := by
  have hdeployments : withdrawn.1.view.deployments = afterUndeployed.1.view.deployments := rfl
  rw [Steady.ledger_running, Steady.ledger_running, hdeployments]

theorem withdrawn_latest : ((Steady.collaborators {}).ledger withdrawn).latest =
    ((Steady.collaborators {}).ledger afterUndeployed).latest := by
  decide +kernel

theorem mountsConfig_default : Settings.MountsConfig {} := by decide

def strayRun : OperandRun (Steady.collaborators {}) where
  toRun := (Run.undisturbed (Steady.collaborators {}) withdrawn).cons undeployed withdrawn_latest
    withdrawn_held
  mounts := mountsConfig_default
  nothing_running := rfl
  running_kept
    | 0 => .inr withdrawn_running
    | n + 1 => .inr (congrArg (fun a => ((Steady.collaborators {}).ledger a).running)
        (Run.undisturbed_succ (Steady.collaborators {}) withdrawn n))

/-- The first revision is rolled out without an encryption configuration, and mounts one nevertheless. -/
theorem withdrawn_config_mounted : (strayRun.before 0).latest = 0 ∧ (∀ r, (strayRun.before 0).held r = none) ∧
    ¬strayRun.Current := by
  refine ⟨rfl, fun r => ?_, fun h => ?_⟩
  · have hsecrets : undeployed.1.view.secrets = Cache.put ∅ (Steady.config "A") := rfl
    rw [show strayRun.before 0 = (Steady.collaborators {}).ledger undeployed from rfl, Steady.ledger_held,
      hsecrets, (Cluster.stores_put ∅ (Steady.config "A")).within?_of_ne (Steady.snapshotName_ne_config r)]
    rfl
  · have hrolled : (strayRun.log 1).any (fun
      | .rolledOut d l => d.podLabel? "revision" = some (Text.integer 1) &&
        l.held 1 = some (Steady.config "A").contents && l.source = none
      | _ => false) = true := by decide +kernel
    obtain ⟨_ | _ | ⟨d, l⟩, hroll, hcheck⟩ := List.any_eq_true.1 hrolled
    · simp at hcheck
    · simp at hcheck
    · simp only [Bool.and_eq_true, decide_eq_true_eq] at hcheck
      obtain ⟨⟨hlabel, hheld⟩, hsource⟩ := hcheck
      have hcurrent := h 1 1 l ⟨d, hroll, hlabel⟩
      rw [hheld, hsource] at hcurrent
      exact absurd hcurrent (Option.some_ne_none _)

end OperandRun

end RolloutControl
