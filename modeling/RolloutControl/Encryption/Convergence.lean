import RolloutControl.Cache.View
import RolloutControl.Encryption.Config
/-! Whether all replicas run with the same encryption configuration, and with which one. -/

namespace RolloutControl

inductive Convergence
  /-- All replicas run with the configuration in this secret, or all of them without any. -/
  | settled (secret : Option Secret)
  | unsettled
deriving DecidableEq

abbrev ConvergenceReport := Except Error Convergence

structure DeployedSource where
  enabled : Bool
  report : ConvergenceReport
deriving Inhabited

namespace DeployedSource

/-- The secrets that the sources report, if none of them fails or is unsettled before. -/
def payloads : List DeployedSource → Except Error (Option (List Secret))
  | [] => .ok (some [])
  | s :: r =>
    match s.report with
    | .error e => .error e
    | .ok .unsettled => .ok none
    | .ok (.settled none) => payloads r
    | .ok (.settled (some secret)) =>
      match payloads r with
      | .ok (some l) => .ok (some (secret :: l))
      | other => other

/-- Whether all secrets have the same rules as these. -/
def agree (read : Bytes → Option EncryptionConfig) (rules : List EncryptionRule) :
    List Secret → Except Error Bool
  | [] => .ok true
  | s :: r =>
    match s.configBy read with
    | .error e => .error e
    | .ok c => if c.rules = rules then agree read rules r else .ok false

/-- What so many sources agree on that report these secrets. -/
def verdict (read : Bytes → Option EncryptionConfig) (sources : Nat) : List Secret → ConvergenceReport
  | [] => .ok (.settled none)
  | golden :: others =>
    if (golden :: others).length ≠ sources then .ok .unsettled
    else
      match golden.configBy read with
      | .error e => .error e
      | .ok c =>
        match agree read c.rules others with
        | .error e => .error e
        | .ok false => .ok .unsettled
        | .ok true => .ok (.settled (some golden))

/-- The verdict of all enabled sources together, with the configurations as `read` makes them out. -/
def evaluateBy (read : Bytes → Option EncryptionConfig) (sources : List DeployedSource) :
    ConvergenceReport :=
  let enabled := sources.filter (·.enabled)
  match payloads enabled with
  | .error e => .error e
  | .ok none => .ok .unsettled
  | .ok (some secrets) => verdict read enabled.length secrets

def evaluate (sources : List DeployedSource) : ConvergenceReport :=
  evaluateBy EncryptionConfig.ofBytes? sources

def union (sources : List DeployedSource) : DeployedSource where
  enabled := sources.any (·.enabled)
  report := evaluate sources

/-- The revisions that the replicas run, or nothing while one of them is not running yet. -/
def runningRevisions (s : EncryptionSettings) : List Pod → Except Error (Option (List String))
  | [] => .ok (some [])
  | p :: r =>
    let phase := p.phase.getD "Pending"
    if phase = "Succeeded" || phase = "Failed" then runningRevisions s r
    else if phase ≠ "Running" then .ok none
    else
      match (p.metadata.labels.getD ∅).get? s.revisionLabel with
      | none => .error (.object (.unlabelled s.space p.metadata.anyName s.revisionLabel))
      | some revision =>
        match runningRevisions s r with
        | .ok (some l) => .ok (some (revision :: l))
        | other => other

def snapshotName (s : EncryptionSettings) (revision : String) : String := s.secretPrefix ++ "-" ++ revision

/-- What the replicas that run say by the revision they are labelled with. -/
def ofReplicas (v : ClusterView) (s : EncryptionSettings) : DeployedSource where
  enabled := s.enabled
  report :=
    let pods := (Cache.listMatching v.pods s.space s.podSelector).filter (·.metadata.deleted.isNone)
    match runningRevisions s pods with
    | .error e => .error e
    | .ok none => .ok .unsettled
    | .ok (some l) =>
      match ascending l with
      | [revision] => .ok (.settled (v.secret? s.space (snapshotName s revision)))
      | _ => .ok .unsettled

end DeployedSource

end RolloutControl
