import RolloutControl.Document.Diff
import RolloutControl.Effect.Update
import RolloutControl.Loop.Basic
import RolloutControl.Observe.Sources
/-! One cycle of the config observer: the facts of the cluster become the observed config of the
operator resource. -/

namespace RolloutControl.Observer

def errorCondition : String := "ConfigObservationError"

/-- Whether an observer has failed in the last cycle. -/
def conditionOf (messages : List String) : Condition :=
  match messages with
  | [] => { type := errorCondition, verdict := .fails }
  | messages =>
    { type := errorCondition, verdict := .holds, reason := "Error", message := joinLines messages }

/-- Stores a document that differs from the one that is stored. The result is what went wrong. -/
def store (observed : Document) : Program (List Error) := do
  match ← updateObservedConfig observed with
  | .ok (previous, true) =>
    publish (.normal "ObservedConfigChanged"
      ("Writing updated observed config: " ++ String.intercalate ", " (previous.diff observed)))
    pure []
  | .ok (_, false) => pure []
  | .error e =>
    publish (.warning "ObservedConfigWriteError" ("Failed to write observed config: " ++ e.message))
    pure [e]

def cycle (observers : List Observer) (settings : Settings) (order : List Nat) :
    Program (Except Error Action) := do
  match ← Program.ask .getOperator with
  | .error e => pure (.error e)
  | .ok operator =>
    if operator.spec.managementState ≠ .managed then pure (.ok .awaitChange)
    else
      match Document.ofJson operator.spec.observedConfig with
      | .error e => pure (.error e)
      | .ok existing =>
        let seen := observeIn observers order ⟨← view, settings⟩ existing
        publishAll seen.events
        -- a document that cannot be stored is one more error
        let failed ← if seen.config.same existing then pure [] else store seen.config
        let messages := (seen.errors ++ failed).map (·.message)
        match ← updateStatus fun now s =>
            { s with conditions := Condition.set now (conditionOf messages) s.conditions } with
        | .error e => pure (.error e)
        | .ok _ => pure (if messages.isEmpty then .ok .awaitChange else .error (.several messages))

end RolloutControl.Observer
