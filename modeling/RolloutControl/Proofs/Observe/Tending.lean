import RolloutControl.Proofs.Observe.Sequel
import RolloutControl.Proofs.Workload.Failure
/-! What the observers leave alone. Whatever fails, a cycle of theirs changes nothing but the document and the
conditions of the operator resource, and as long as it writes no spec it changes the conditions only. -/

namespace RolloutControl.Observer

variable {s : Settings} {σ : Type} (w : Recorders s σ)

/-- Neither what is deployed nor what is known of it has changed. -/
structure Tended (a b : ClusterState) : Prop where
  view : b.view = a.view
  managementState : b.operator.spec.managementState = a.operator.spec.managementState
  latest : b.operator.statusOrEmpty.latestRevision = a.operator.statusOrEmpty.latestRevision
  observed : b.operator.statusOrEmpty.observedGeneration = a.operator.statusOrEmpty.observedGeneration

theorem Tended.refl (a : ClusterState) : Tended a a := ⟨rfl, rfl, rfl, rfl⟩

theorem Tended.trans {a b c : ClusterState} (h : Tended a b) (h' : Tended b c) : Tended a c :=
  ⟨h'.view.trans h.view, h'.managementState.trans h.managementState, h'.latest.trans h.latest,
    h'.observed.trans h.observed⟩

theorem tended_store (d : Document) (a : σ) : Tended (w.state a) (w.state (w.after (store d) a)) := by
  have hupdate : Tended (w.state a) (w.state (w.after (updateObservedConfig d) a)) := by
    refine w.updateObservedConfig_keeps (P := Tended (w.state a)) (fun version b stored hb hok => ?_) a (.refl _)
    have hrefreshed := refreshed_of_stored w hok
    refine hb.trans ⟨hrefreshed.view, hrefreshed.managementState, ?_, ?_⟩
    · rw [hrefreshed.status]
    · rw [hrefreshed.status]
  simp only [store, Collaborators.after_bind]
  rcases w.result (updateObservedConfig d) a with e | ⟨previous, _ | _⟩ <;> simpa using hupdate

theorem tended_conclude (l : List String) (a : σ) : Tended (w.state a) (w.state (w.after (conclude l) a)) := by
  have hupdate : Tended (w.state a) (w.state (w.after (updateStatus (record l)) a)) := by
    obtain ⟨hview, hspec, -, hlatest, hobserved⟩ := w.updateStatus_frame (record l)
      (Q := fun status => status.latestRevision = (w.state a).operator.statusOrEmpty.latestRevision ∧
        status.observedGeneration = (w.state a).operator.statusOrEmpty.observedGeneration)
      (fun now old h => h) a ⟨rfl, rfl⟩
    exact ⟨hview, by rw [hspec], hlatest, hobserved⟩
  simp only [conclude, Collaborators.after_bind]
  cases w.result (updateStatus (record l)) a <;> exact hupdate

theorem tended_renewWith (existing : Document) (seen : Observation) (a : σ) :
    Tended (w.state a) (w.state (w.after (renewWith existing seen) a)) := by
  have hpublished : w.state (w.after (publishAll seen.events) a) = w.state a := by simp
  simp only [renewWith, Collaborators.after_bind]
  refine .trans (b := w.state (w.after (storeIfNew existing seen.config)
    (w.after (publishAll seen.events) a))) ?_ (tended_conclude w _ _)
  rw [← hpublished]
  unfold storeIfNew
  split
  · exact .refl _
  · exact tended_store w seen.config _

/-- A cycle of the observers does not touch the operand. -/
theorem tended_cycle (observers : List Observer) (order : List Nat) (a : σ) :
    Tended (w.state a) (w.state (w.after (cycle observers s order) a)) := by
  have hasked : w.state (w.after (Program.ask .getOperator) a) = w.state a :=
    w.state_reading (c := .getOperator) trivial a
  simp only [cycle_eq, Collaborators.after_bind]
  rw [← hasked]
  generalize w.after (Program.ask .getOperator) a = b
  cases w.result (Program.ask .getOperator) a with
  | error e => exact .refl _
  | ok operator =>
    dsimp only
    split
    · exact .refl _
    · cases hread : Document.ofJson operator.spec.observedConfig with
      | error e => simpa only [hread] using .refl _
      | ok existing =>
        simp only [renew_eq, Collaborators.after_bind]
        rw [← w.state_after_view b]
        exact tended_renewWith w existing _ _

theorem Tends.not_displaces {c : Call} (h : Tends c) (c' : Call) : ¬c.Displaces c' := by
  rcases h with hreading | hwrite
  · exact hreading.not_displaces
  · cases c with
    | writeSpec | writeStatus => exact id
    | _ => exact (hwrite.elim id id).elim

end RolloutControl.Observer
