import RolloutControl.Proofs.Effect.Contract
import RolloutControl.Proofs.Encryption.Unanimity
/-! What replicas say that run. As long as all of them are labelled with one revision, they stand for the secret
that is held for this revision, and they speak for encryption if a configuration can be made out of it. -/

namespace RolloutControl

theorem ascending_of_forall_eq {κ : Type} [LT κ] [DecidableLT κ] [DecidableEq κ] [KeyOrder κ] {l : List κ} {k : κ}
    (hne : l ≠ []) (h : ∀ j ∈ l, j = k) : ascending l = [k] := by
  have hmem : ∀ j, j ∈ l ↔ j ∈ [k] := by
    intro j
    rw [List.mem_singleton]
    refine ⟨h j, ?_⟩
    rintro rfl
    obtain ⟨i, hi⟩ := List.exists_mem_of_ne_nil l hne
    exact h i hi ▸ hi
  exact ascending_congr hmem

/-- An encryption configuration can be made out of this. -/
def Secret.Contents.Decodable (c : Secret.Contents) : Prop :=
  ∃ x, ({ data := c.1 } : Secret).encryptionConfig = .ok x

theorem Secret.decodable_contents (x : Secret) :
    x.contents.Decodable ↔ ∃ c, x.encryptionConfig = .ok c := by
  simp only [Secret.Contents.Decodable, Secret.contents, Secret.encryptionConfig, Secret.configBy]
  cases (x.data.getD ∅).get? EncryptionConfig.key with
  | none => simp
  | some bytes => cases hread : EncryptionConfig.ofBytes? bytes <;> simp [hread]

theorem Secret.exists_decodable_iff {x y : Option Secret} (h : x.map Secret.contents = y.map Secret.contents) :
    (∃ z, x = some z ∧ z.contents.Decodable) ↔ ∃ z c, y = some z ∧ z.encryptionConfig = .ok c := by
  cases x with
  | none =>
    have hnone : y = none := by simpa using h.symm
    simp [hnone]
  | some z =>
    obtain ⟨z', rfl, hcontents⟩ := Option.map_eq_some_iff.1 h.symm
    simp [← hcontents, z'.decodable_contents]

namespace DeployedSource

variable {s : EncryptionSettings} {revision : String} {v : ClusterView}

/-- A replica of the operand that runs this revision. -/
structure Runs (s : EncryptionSettings) (revision : String) (p : Pod) : Prop where
  space : p.metadata.space = some s.space
  phase : p.phase = some "Running"
  undeleted : p.metadata.deleted = none
  selected : Cache.selects s.podSelector p.metadata.labels
  labelled : (p.metadata.labels.getD ∅).get? s.revisionLabel = some revision

theorem report_of_no_pods (h : v.pods = ∅) : (ofReplicas v s).report = .ok .unsettled := by
  rw [ofReplicas, h]
  rfl

theorem exists_settled_iff (source : DeployedSource) :
    (∃ x, evaluate [source] = .ok (.settled (some x))) ↔
      source.enabled ∧ ∃ x, source.report = .ok (.settled (some x)) ∧ x.contents.Decodable := by
  constructor
  · rintro ⟨x, hx⟩
    obtain ⟨⟨first, r, hfilter, -⟩, rules, hagreed⟩ := evaluateBy_eq_settled_some.1 hx
    have henabled : source.enabled = true := by
      cases hdisabled : source.enabled with
      | true => rfl
      | false => simp [hdisabled] at hfilter
    obtain ⟨y, c, hy, hc, -⟩ := hagreed source (List.mem_singleton_self source) henabled
    exact ⟨henabled, y, hy, y.decodable_contents.2 ⟨c, hc⟩⟩
  · rintro ⟨henabled, x, hx, hdecodable⟩
    obtain ⟨c, hc⟩ := x.decodable_contents.1 hdecodable
    refine ⟨x, evaluateBy_eq_settled_some.2 ⟨⟨source, [], by simp [henabled], hx⟩, c.rules, ?_⟩⟩
    intro t ht _
    obtain rfl := List.mem_singleton.1 ht
    exact ⟨x, c, hx, hc, rfl⟩

end DeployedSource

end RolloutControl
