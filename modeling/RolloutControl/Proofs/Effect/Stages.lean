import RolloutControl.Effect.Update
import RolloutControl.Proofs.Effect.Contract
/-! What an update of the operator resource does, whatever it is answered. It writes nothing but the change of what it
has read last, on top of the version that it has read, and it ends as soon as one write has succeeded. -/

namespace RolloutControl

inductive Controller
  | observer | workload
deriving DecidableEq

inductive Update
  | status (author : Controller) (change : Instant → OperatorStatus → OperatorStatus)
  | observedConfig (document : Document)

/-- How far an update has got: what it has read last, and what it has written. -/
inductive Stage
  | unread
  | read (r : OperatorResource)
  | written (before after : OperatorResource)

namespace Stage

def wrote : Stage → OperatorResource → Stage
  | .read r, q => .written r q
  | stage, _ => stage

def next (stage : Stage) : (c : Call) → c.Answer → Stage
  | .getOperator, .ok r => .read r
  | .writeSpec _ _, .ok q | .writeStatus _ _, .ok q => stage.wrote q
  | _, _ => stage

def Written : Stage → Prop
  | .written _ _ => True
  | _ => False

end Stage

/-- Whatever it is answered, the program makes only calls that are permitted at its stage, and ends as it may. -/
def Program.Follows {α : Type} (permits : Stage → Call → Prop) (ends : Stage → α → Prop) : Stage → Program α → Prop
  | stage, .done x => ends stage x
  | stage, .call c next => permits stage c ∧ ∀ x, (next x).Follows permits ends (stage.next c x)

namespace Program

variable {α β : Type} {permits : Stage → Call → Prop} {ends : Stage → β → Prop} {stage : Stage}

theorem Follows.mono {ends' : Stage → β → Prop} (h : ∀ stage x, ends stage x → ends' stage x) {p : Program β}
    (hp : p.Follows permits ends stage) : p.Follows permits ends' stage := by
  induction p generalizing stage with
  | done x => exact h stage x hp
  | call c next ih => exact ⟨hp.1, fun x => ih x (hp.2 x)⟩

theorem Follows.bind {p : Program α} {f : α → Program β}
    (h : p.Follows permits (fun stage x => (f x).Follows permits ends stage) stage) :
    (p >>= f).Follows permits ends stage := by
  change (p.bind f).Follows permits ends stage
  induction p generalizing stage with
  | done x => exact h
  | call c next ih => exact ⟨h.1, fun x => ih x (h.2 x)⟩

theorem Follows.ask_bind {c : Call} {f : c.Answer → Program β} (hc : permits stage c)
    (h : ∀ x, (f x).Follows permits ends (stage.next c x)) : (ask c >>= f).Follows permits ends stage :=
  ⟨hc, h⟩

end Program

namespace Update

/-- What an update that succeeds tells, apart from whether it has written. -/
abbrev Value : Update → Type
  | .status _ _ => OperatorStatus
  | .observedConfig _ => Document

abbrev Result (u : Update) : Type := Except Error (u.Value × Bool)

def program : (u : Update) → Program u.Result
  | .status _ change => updateStatus change
  | .observedConfig d => updateObservedConfig d

def Makes : Update → OperatorResource → Call → Prop
  | .status _ change, r, .writeStatus version new => version = r.version ∧ ∃ now, new = change now r.statusOrEmpty
  | .observedConfig d, r, .writeSpec version spec =>
    version = r.version ∧ spec = { r.spec with observedConfig := d.toJson }
  | _, _, _ => False

def Permits (u : Update) : Stage → Call → Prop
  | .unread, c => Collaborators.Reading c
  | .read r, c => Collaborators.Reading c ∨ u.Makes r c
  | .written _ _, _ => False

/-- There is nothing to change of the resource, and this is told of it. -/
def Spares : (u : Update) → OperatorResource → u.Value → Prop
  | .status _ change, r, told => told = r.statusOrEmpty ∧ ∃ now, change now told = told
  | .observedConfig d, r, told => Document.ofJson r.spec.observedConfig = .ok told ∧ told.same d

/-- What is told of a resource that has replaced another one: the new status, or the old document. -/
def Tells : (u : Update) → (before after : OperatorResource) → u.Value → Prop
  | .status _ _, _, after, told => told = after.statusOrEmpty
  | .observedConfig _, before, _, told => Document.ofJson before.spec.observedConfig = .ok told

/-- The update may end like this if it has written, if there was nothing to write, or if it has failed before. -/
def Ends (u : Update) (stage : Stage) (x : u.Result) : Prop :=
  match x, stage with
  | .error _, stage => ¬stage.Written
  | .ok (x, false), .read r => u.Spares r x
  | .ok (x, true), .written r q => u.Tells r q x
  | .ok _, _ => False

/-- One attempt may end like the whole update, or with a conflict if it has not written. -/
def Pauses (u : Update) (stage : Stage) : Attempt (u.Value × Bool) → Prop
  | .finished x => u.Ends stage x
  | .conflicted _ => ¬stage.Written

variable {u : Update} {stage : Stage}

theorem permits_of_reading {c : Call} (hc : Collaborators.Reading c) (h : ¬stage.Written) : u.Permits stage c := by
  cases stage with
  | unread => exact hc
  | read r => exact .inl hc
  | written r q => exact absurd trivial h

theorem follows_repeated {attempt : Program (Attempt (u.Value × Bool))}
    (h : ∀ stage, ¬stage.Written → attempt.Follows u.Permits u.Pauses stage) (n : Nat) (hstage : ¬stage.Written) :
    (Attempt.repeated attempt n).Follows u.Permits u.Ends stage := by
  induction n generalizing stage with
  | zero =>
    refine .bind ((h stage hstage).mono fun stage x hx => ?_)
    cases x with
    | finished y => exact hx
    | conflicted e => exact hx
  | succ n ih =>
    refine .bind ((h stage hstage).mono fun stage x hx => ?_)
    cases x with
    | finished y => exact hx
    | conflicted e => exact .ask_bind (permits_of_reading trivial hx) fun _ => ih hx

theorem follows_statusAttempt (author : Controller) (change : Instant → OperatorStatus → OperatorStatus)
    (hstage : ¬stage.Written) :
    (statusAttempt change).Follows (Permits (.status author change)) (Pauses (.status author change)) stage := by
  refine .ask_bind (permits_of_reading trivial hstage) fun x => ?_
  cases x with
  | error e => exact hstage
  | ok r =>
    refine .ask_bind (.inl trivial) fun now => ?_
    dsimp only
    split
    · next hsame => exact ⟨rfl, now, hsame⟩
    · refine .ask_bind (.inr ⟨rfl, now, rfl⟩) fun y => ?_
      cases y with
      | ok q => exact rfl
      | error e =>
        dsimp only
        split <;> exact id

theorem follows_observedConfigAttempt (d : Document) (hstage : ¬stage.Written) :
    (observedConfigAttempt d).Follows (Permits (.observedConfig d)) (Pauses (.observedConfig d)) stage := by
  refine .ask_bind (permits_of_reading trivial hstage) fun x => ?_
  cases x with
  | error e => exact hstage
  | ok r =>
    dsimp only
    cases hread : Document.ofJson r.spec.observedConfig with
    | error e => exact id
    | ok previous =>
      dsimp only
      split
      · next hsame => exact ⟨hread, hsame⟩
      · refine .ask_bind (.inr ⟨rfl, rfl⟩) fun y => ?_
        cases y with
        | ok q => exact hread
        | error e =>
          unfold Attempt.ofWrite
          dsimp only
          split <;> exact id

/-- Every update keeps to its stages from the beginning. -/
theorem follows_program (u : Update) : u.program.Follows u.Permits u.Ends .unread := by
  cases u with
  | status author change => exact follows_repeated (fun _ => follows_statusAttempt author change) Attempt.retries id
  | observedConfig d => exact follows_repeated (fun _ => follows_observedConfigAttempt d) Attempt.retries id

end Update

end RolloutControl
