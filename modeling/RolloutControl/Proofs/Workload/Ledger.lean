import Mathlib.Logic.Function.Basic
import Mathlib.Tactic.Simps.Basic
import RolloutControl.Proofs.Digest.Dependencies
import RolloutControl.Proofs.Effect.Contract
/-! The few facts about a cluster that rollouts depend on. A secret that is stored under the name of a
snapshot is held for that revision and for no other one. -/

namespace RolloutControl

/-- The label and the digest of the encryption configuration that a deployment carries. -/
structure Carried where
  label : Option String
  digest : Option String

/-- What a cycle goes by when it rolls out. -/
structure Ledger where
  /-- The revision that the status has on record. -/
  latest : Int
  /-- The encryption configuration, as it is now. -/
  source : Option Secret.Contents
  /-- The snapshot of each revision. -/
  held : Int → Option Secret.Contents
  running : Option Carried

def Carried.ofDeployment (s : Settings) (d : Deployment) : Carried where
  label := d.podLabel? s.encryption.revisionLabel
  digest := (Rollout.recordedDependencies d).get? (Rollout.secretKey s s.encryption.secretPrefix)

def ClusterState.ledger (a : ClusterState) (s : Settings) : Ledger where
  latest := a.operator.statusOrEmpty.latestRevision
  source := (a.view.secret? s.targetSpace s.encryption.secretPrefix).map Secret.contents
  held r := (a.view.secret? s.targetSpace (Rollout.snapshotName s r)).map Secret.contents
  running := (a.view.deployment? s).map (Carried.ofDeployment s)

@[simps] def Ledger.hold (l : Ledger) (r : Int) (c : Secret.Contents) : Ledger :=
  { l with held := Function.update l.held r (some c) }

@[simps] def Ledger.run (l : Ledger) (c : Carried) : Ledger := { l with running := some c }

@[simps] def Ledger.record (l : Ledger) (r : Int) : Ledger := { l with latest := r }

def snapshotRef (s : Settings) (r : Int) : ObjectRef := ⟨Rollout.snapshotName s r, some s.targetSpace⟩

theorem snapshotName_injective {s : Settings} {q r : Int}
    (h : Rollout.snapshotName s q = Rollout.snapshotName s r) : q = r :=
  Text.integer_injective ((String.append_right_inj _).1 h)

theorem snapshotRef_injective {s : Settings} {q r : Int} (h : snapshotRef s q = snapshotRef s r) :
    q = r :=
  snapshotName_injective (ObjectRef.mk.inj h).1

theorem prefix_ne_snapshotName (s : Settings) (r : Int) :
    s.encryption.secretPrefix ≠ Rollout.snapshotName s r := by
  intro h
  have hlength := congrArg String.length h
  have hmark : "-".length = 1 := rfl
  simp only [Rollout.snapshotName, DeployedSource.snapshotName, String.length_append] at hlength
  omega

theorem isPrefix_snapshotName (s : Settings) (r : Int) :
    (s.encryption.secretPrefix ++ "-").toList <+: (Rollout.snapshotName s r).toList := by
  simp [Rollout.snapshotName, DeployedSource.snapshotName]

theorem Cache.Stores.within?_of_ne {x : Secret} {before after : Cache Secret}
    (h : Cache.Stores x before after) {space name : String} (hname : name ≠ (objectRef x).name) :
    after.within? space name = before.within? space name := by
  have hne (sp : Option String) : (⟨name, sp⟩ : ObjectRef) ≠ objectRef x :=
    fun he => hname (congrArg ObjectRef.name he)
  simp only [Cache.within?, Cache.find?, h.frame _ (hne _)]

theorem ledger_stores {s : Settings} {a : ClusterState} {x : Secret} {m : Cache Secret} {r : Int}
    (h : Cache.Stores x a.view.secrets m) (hx : objectRef x = snapshotRef s r) :
    ({ a with view := { a.view with secrets := m } } : ClusterState).ledger s =
      (a.ledger s).hold r x.contents := by
  have hname : (objectRef x).name = Rollout.snapshotName s r := by rw [hx]; rfl
  obtain ⟨y, hy, hcontents⟩ := h.found s.targetSpace (by rw [hx]; rfl)
  rw [hname] at hy
  simp only [ClusterState.ledger, Ledger.hold, ClusterView.secret?, ClusterView.deployment?]
  congr 1
  · rw [h.within?_of_ne (by rw [hname]; exact prefix_ne_snapshotName s r)]
  · funext q
    by_cases hq : q = r
    · subst hq
      simp [hy, hcontents]
    · rw [Function.update_of_ne hq,
        h.within?_of_ne (by rw [hname]; exact fun he => hq (snapshotName_injective he))]

end RolloutControl
