import RolloutControl.Effect.Update
import RolloutControl.Proofs.Effect.Contract
/-! What becomes of the operator resource when it is updated. What an attempt can do is said once, step by step, and
what follows about updates is read off that. Whatever fails on the way, a property that every write of the changed
status keeps is kept by the update. When nothing fails, the first attempt is the last one, and a write is made exactly
if there is something to change. -/

namespace RolloutControl

section Trials
variable {σ : Type} (world : Program.World σ)

/-- How an attempt to write the status may go: its steps, where it leaves the world, and how it ends. -/
inductive StatusTrial (change : Instant → OperatorStatus → OperatorStatus) (a : σ) :
    List (Step σ) → σ → Attempt StatusUpdate → Prop
  | unread {b : σ} {e : Error} (hread : world .getOperator a = (.error e, b)) :
      StatusTrial change a [⟨.getOperator, .error e, a, b⟩] b (.finished (.error e))
  | idle {b c : σ} {r : OperatorResource} {now : Instant} (hread : world .getOperator a = (.ok r, b))
      (hclock : world .clock b = (now, c)) (hsame : change now r.statusOrEmpty = r.statusOrEmpty) :
      StatusTrial change a [⟨.getOperator, .ok r, a, b⟩, ⟨.clock, now, b, c⟩] c
        (.finished (.ok (r.statusOrEmpty, false)))
  | wrote {b c d : σ} {r q : OperatorResource} {now : Instant} (hread : world .getOperator a = (.ok r, b))
      (hclock : world .clock b = (now, c)) (hnew : change now r.statusOrEmpty ≠ r.statusOrEmpty)
      (hwrite : world (.writeStatus r.version (change now r.statusOrEmpty)) c = (.ok q, d)) :
      StatusTrial change a [⟨.getOperator, .ok r, a, b⟩, ⟨.clock, now, b, c⟩,
        ⟨.writeStatus r.version (change now r.statusOrEmpty), .ok q, c, d⟩] d
        (.finished (.ok (q.statusOrEmpty, true)))
  | refused {b c d : σ} {r : OperatorResource} {now : Instant} {e : Error}
      (hread : world .getOperator a = (.ok r, b)) (hclock : world .clock b = (now, c))
      (hnew : change now r.statusOrEmpty ≠ r.statusOrEmpty)
      (hwrite : world (.writeStatus r.version (change now r.statusOrEmpty)) c = (.error e, d)) :
      StatusTrial change a [⟨.getOperator, .ok r, a, b⟩, ⟨.clock, now, b, c⟩,
        ⟨.writeStatus r.version (change now r.statusOrEmpty), .error e, c, d⟩] d
        (if e.isConflict then .conflicted e else .finished (.error e))

theorem trial_statusAttempt (change : Instant → OperatorStatus → OperatorStatus) (a : σ) :
    StatusTrial world change a ((statusAttempt change).trace world a) ((statusAttempt change).run world a).2
      ((statusAttempt change).run world a).1 := by
  simp only [statusAttempt, Program.trace_bind, Program.run_bind]
  rw [Program.trace_ask, Program.run_ask]
  cases hread : world .getOperator a with | mk x b
  cases x with
  | error e => exact .unread hread
  | ok r =>
    simp only [Program.trace_bind, Program.run_bind]
    rw [Program.trace_ask, Program.run_ask]
    cases hclock : world .clock b with | mk now c
    dsimp only
    split
    · next hsame => exact .idle hread hclock hsame
    · next hnew =>
      simp only [Program.trace_bind, Program.run_bind]
      rw [Program.trace_ask, Program.run_ask]
      cases hwrite : world (.writeStatus r.version (change now r.statusOrEmpty)) c with | mk x d
      cases x with
      | ok q => exact .wrote hread hclock hnew hwrite
      | error e => exact .refused hread hclock hnew hwrite

/-- How an attempt to write the observed document may go. -/
inductive DocumentTrial (document : Document) (a : σ) : List (Step σ) → σ → Attempt DocumentUpdate → Prop
  | unread {b : σ} {e : Error} (hread : world .getOperator a = (.error e, b)) :
      DocumentTrial document a [⟨.getOperator, .error e, a, b⟩] b (.finished (.error e))
  | unreadable {b : σ} {r : OperatorResource} {e : Error} (hread : world .getOperator a = (.ok r, b))
      (hfound : Document.ofJson r.spec.observedConfig = .error e) :
      DocumentTrial document a [⟨.getOperator, .ok r, a, b⟩] b (.finished (.error e))
  | idle {b : σ} {r : OperatorResource} {previous : Document} (hread : world .getOperator a = (.ok r, b))
      (hfound : Document.ofJson r.spec.observedConfig = .ok previous) (hsame : previous.same document = true) :
      DocumentTrial document a [⟨.getOperator, .ok r, a, b⟩] b (.finished (.ok (previous, false)))
  | wrote {b c : σ} {r q : OperatorResource} {previous : Document} (hread : world .getOperator a = (.ok r, b))
      (hfound : Document.ofJson r.spec.observedConfig = .ok previous) (hnew : ¬previous.same document = true)
      (hwrite : world (.writeSpec r.version { r.spec with observedConfig := document.toJson }) b = (.ok q, c)) :
      DocumentTrial document a [⟨.getOperator, .ok r, a, b⟩,
        ⟨.writeSpec r.version { r.spec with observedConfig := document.toJson }, .ok q, b, c⟩] c
        (.finished (.ok (previous, true)))
  | refused {b c : σ} {r : OperatorResource} {previous : Document} {e : Error}
      (hread : world .getOperator a = (.ok r, b))
      (hfound : Document.ofJson r.spec.observedConfig = .ok previous) (hnew : ¬previous.same document = true)
      (hwrite : world (.writeSpec r.version { r.spec with observedConfig := document.toJson }) b = (.error e, c)) :
      DocumentTrial document a [⟨.getOperator, .ok r, a, b⟩,
        ⟨.writeSpec r.version { r.spec with observedConfig := document.toJson }, .error e, b, c⟩] c
        (if e.isConflict then .conflicted e else .finished (.error e))

theorem trial_observedConfigAttempt (document : Document) (a : σ) :
    DocumentTrial world document a ((observedConfigAttempt document).trace world a)
      ((observedConfigAttempt document).run world a).2 ((observedConfigAttempt document).run world a).1 := by
  simp only [observedConfigAttempt, Program.trace_bind, Program.run_bind]
  rw [Program.trace_ask, Program.run_ask]
  cases hread : world .getOperator a with | mk x b
  cases x with
  | error e => exact .unread hread
  | ok r =>
    dsimp only
    cases hfound : Document.ofJson r.spec.observedConfig with
    | error e => exact .unreadable hread hfound
    | ok previous =>
      dsimp only
      split
      · next hsame => exact .idle hread hfound hsame
      · next hnew =>
        simp only [Program.trace_bind, Program.run_bind]
        rw [Program.trace_ask, Program.run_ask]
        cases hwrite : world (.writeSpec r.version { r.spec with observedConfig := document.toJson }) b with | mk x c
        cases x with
        | ok q => exact .wrote hread hfound hnew hwrite
        | error e => exact .refused hread hfound hnew hwrite

end Trials

theorem Attempt.uses_repeated {α : Type} {kind : Call → Prop} {attempt : Program (Attempt α)}
    (h : attempt.Uses kind) (hsleep : kind (.sleep pause)) (n : Nat) : (repeated attempt n).Uses kind := by
  induction n with
  | zero => exact .bind h fun x => by cases x <;> exact .pure _
  | succ n ih =>
    refine .bind h fun x => ?_
    cases x with
    | finished y => exact .pure _
    | conflicted e => exact .bind (.ask hsleep) fun _ => ih

def Call.UpdatesStatus : Call → Prop
  | .getOperator | .clock | .sleep _ | .writeStatus _ _ => True
  | _ => False

theorem updatesStatus_updateStatus (change : Instant → OperatorStatus → OperatorStatus) :
    (updateStatus change).Uses Call.UpdatesStatus := by
  refine Attempt.uses_repeated (.bind (.ask trivial) fun x => ?_) trivial Attempt.retries
  cases x with
  | error e => exact .pure _
  | ok current =>
    refine .bind (.ask trivial) fun now => ?_
    dsimp only
    split
    · exact .pure _
    · refine .bind (.ask trivial) fun y => ?_
      cases y <;> exact .pure _

theorem uses_updateObservedConfig {kind : Call → Prop} {document : Document} (hread : kind .getOperator)
    (hsleep : kind (.sleep Attempt.pause))
    (hwrite : ∀ version spec, spec.observedConfig = document.toJson → kind (.writeSpec version spec)) :
    (updateObservedConfig document).Uses kind := by
  refine Attempt.uses_repeated (.bind (.ask hread) fun x => ?_) hsleep Attempt.retries
  cases x with
  | error e => exact .pure _
  | ok current =>
    cases hfound : Document.ofJson current.spec.observedConfig with
    | error e => simpa only [hfound] using .pure _
    | ok previous =>
      simp only [hfound]
      split
      · exact .pure _
      · exact .bind (.ask (hwrite _ _ rfl)) fun _ => .pure _

namespace Collaborators

variable {s : Settings} {σ α β : Type} (w : Collaborators s σ)
variable {change : Instant → OperatorStatus → OperatorStatus}

theorem reading_or_isStatusWrite {c : Call} (h : c.UpdatesStatus) : Reading c ∨ c.IsStatusWrite := by
  cases c with
  | getOperator | clock | sleep => exact .inl trivial
  | writeStatus => exact .inr trivial
  | _ => exact h.elim

theorem uses_updateStatus (change : Instant → OperatorStatus → OperatorStatus) :
    (updateStatus change).Uses fun c => Reading c ∨ c.IsStatusWrite :=
  (updatesStatus_updateStatus change).mono fun _ => reading_or_isStatusWrite

theorem exists_ok {x : Except Error α} (h : ∀ e, x ≠ .error e) : ∃ y, x = .ok y := by
  cases x with
  | error e => exact absurd rfl (h e)
  | ok y => exact ⟨y, rfl⟩

theorem exists_read {a : σ} (h : w.Succeeds (Program.ask .getOperator) a) :
    ∃ current, w.result (Program.ask .getOperator) a = .ok current :=
  exists_ok fun e he => (w.succeeds_ask .getOperator a).1 h (by rw [show (w.answer _ a).1 = _ from he]; trivial)

theorem exists_read_of_failsOnly {kind : Call → Prop} (hkind : ¬kind .getOperator) {a : σ}
    (h : w.FailsOnly kind (Program.ask .getOperator) a) :
    ∃ current, w.result (Program.ask .getOperator) a = .ok current :=
  exists_ok fun e he => hkind ((w.failsOnly_ask .getOperator a).1 h
    (by rw [show (w.answer _ a).1 = _ from he]; trivial))

theorem state_writeStatus_of_error {version : String} {status : OperatorStatus} {a : σ} {e : Error}
    (h : (w.answer (.writeStatus version status) a).1 = .error e) :
    w.state (w.answer (.writeStatus version status) a).2 = w.state a :=
  w.state_of_failed (by rw [h]; trivial)

theorem trial_statusAttempt (change : Instant → OperatorStatus → OperatorStatus) (a : σ) :
    StatusTrial w.answer change a ((statusAttempt change).trace w.answer a) (w.after (statusAttempt change) a)
      (w.result (statusAttempt change) a) :=
  RolloutControl.trial_statusAttempt w.answer change a

theorem trial_observedConfigAttempt (document : Document) (a : σ) :
    DocumentTrial w.answer document a ((observedConfigAttempt document).trace w.answer a)
      (w.after (observedConfigAttempt document) a) (w.result (observedConfigAttempt document) a) :=
  RolloutControl.trial_observedConfigAttempt w.answer document a

theorem state_of_read {c : Call} {a b : σ} {x : c.Answer} (h : w.answer c a = (x, b)) (hc : Reading c) :
    w.state b = w.state a := by
  have hkept := w.state_reading hc a
  rwa [h] at hkept

theorem state_of_refused {c : Call} {a b : σ} {x : c.Answer} (h : w.answer c a = (x, b)) (hx : c.Failed x) :
    w.state b = w.state a := by
  have hkept := w.state_of_failed (c := c) (a := a)
  rw [h] at hkept
  exact hkept hx

theorem eq_of_read {a b : σ} {r : OperatorResource} (h : w.answer .getOperator a = (.ok r, b)) :
    r = (w.state a).operator ∧ w.state b = w.state a :=
  ⟨w.eq_of_getOperator (congrArg Prod.fst h), w.state_of_read h trivial⟩

theorem eq_of_written {version : String} {status : OperatorStatus} {a b : σ} {q : OperatorResource}
    (h : w.answer (.writeStatus version status) a = (.ok q, b)) :
    q = (w.state b).operator ∧ (w.state b).operator.statusOrEmpty = status := by
  have hallowed := w.allowed (.writeStatus version status) a
  rw [h] at hallowed
  obtain ⟨-, hstored, hstatus⟩ := hallowed
  refine ⟨hstored.symm, ?_⟩
  rw [hstored, OperatorResource.statusOrEmpty, hstatus]
  rfl

section Same
variable {a : σ} (hread : w.result (Program.ask .getOperator) a = .ok (w.state a).operator)
  (hsame : ∀ now, change now (w.state a).operator.statusOrEmpty = (w.state a).operator.statusOrEmpty)

include hread hsame

theorem statusAttempt_of_same :
    w.result (statusAttempt change) a = .finished (.ok ((w.state a).operator.statusOrEmpty, false)) ∧
      w.state (w.after (statusAttempt change) a) = w.state a ∧
      ∀ x ∈ (statusAttempt change).trace w.answer a, x.call = .getOperator ∨ x.call = .clock := by
  have htrial := w.trial_statusAttempt change a
  generalize (statusAttempt change).trace w.answer a = l at htrial ⊢
  generalize w.after (statusAttempt change) a = b at htrial ⊢
  generalize w.result (statusAttempt change) a = x at htrial ⊢
  cases htrial with
  | unread hunread => cases hread.symm.trans (congrArg Prod.fst hunread)
  | idle hread hclock =>
    obtain ⟨rfl, hkept⟩ := w.eq_of_read hread
    exact ⟨rfl, (w.state_of_read hclock trivial).trans hkept, by simp⟩
  | wrote hread _ hnew | refused hread _ hnew =>
    obtain ⟨rfl, -⟩ := w.eq_of_read hread
    exact absurd (hsame _) hnew

theorem updateStatus_of_same :
    w.result (updateStatus change) a = .ok ((w.state a).operator.statusOrEmpty, false) ∧
      w.state (w.after (updateStatus change) a) = w.state a ∧
      ∀ x ∈ (updateStatus change).trace w.answer a, x.call = .getOperator ∨ x.call = .clock := by
  obtain ⟨hresult, hstate, htrace⟩ := w.statusAttempt_of_same hread hsame
  have hran : ((statusAttempt change).run w.answer a).1 =
      .finished (.ok ((w.state a).operator.statusOrEmpty, false)) := hresult
  simp only [updateStatus, Attempt.retries, Attempt.repeated, result_bind, after_bind, Program.trace_bind,
    hresult, hran]
  exact ⟨rfl, hstate, by simpa using htrace⟩

end Same

theorem statusAttempt_keeps {P : ClusterState → Prop}
    (hwrite : ∀ now version a stored, P (w.state a) →
      (w.answer (.writeStatus version (change now (w.state a).operator.statusOrEmpty)) a).1 = .ok stored →
      P (w.state (w.answer (.writeStatus version (change now (w.state a).operator.statusOrEmpty)) a).2))
    (a : σ) (ha : P (w.state a)) : P (w.state (w.after (statusAttempt change) a)) := by
  have htrial := w.trial_statusAttempt change a
  generalize (statusAttempt change).trace w.answer a = l at htrial
  generalize w.after (statusAttempt change) a = b at htrial ⊢
  generalize w.result (statusAttempt change) a = x at htrial
  cases htrial with
  | unread hread =>
    rwa [w.state_of_read hread trivial]
  | idle hread hclock =>
    rwa [w.state_of_read hclock trivial, w.state_of_read hread trivial]
  | @wrote b c d r q now hread hclock _ hstored =>
    obtain ⟨rfl, hkept⟩ := w.eq_of_read hread
    have hc : w.state c = w.state a := (w.state_of_read hclock trivial).trans hkept
    have hnew := hwrite now (w.state a).operator.version c q (hc ▸ ha)
    rw [hc, hstored] at hnew
    exact hnew rfl
  | refused hread hclock _ hrefused =>
    rwa [w.state_of_refused hrefused trivial, w.state_of_read hclock trivial, w.state_of_read hread trivial]

theorem repeated_keeps {P : ClusterState → Prop} {attempt : Program (Attempt α)}
    (hstep : ∀ a, P (w.state a) → P (w.state (w.after attempt a))) (n : Nat) (a : σ) (ha : P (w.state a)) :
    P (w.state (w.after (Attempt.repeated attempt n) a)) := by
  induction n generalizing a with
  | zero =>
    simp only [Attempt.repeated, after_bind]
    cases w.result attempt a <;> exact hstep a ha
  | succ n ih =>
    simp only [Attempt.repeated, after_bind]
    cases w.result attempt a with
    | finished x => exact hstep a ha
    | conflicted e =>
      have hsleep (b : σ) : w.state (w.after (Program.ask (.sleep Attempt.pause)) b) = w.state b :=
        w.state_reading (c := .sleep Attempt.pause) trivial b
      simp only [after_bind]
      exact ih _ (by simpa only [hsleep] using hstep a ha)

theorem updateStatus_keeps {P : ClusterState → Prop}
    (hwrite : ∀ now version a stored, P (w.state a) →
      (w.answer (.writeStatus version (change now (w.state a).operator.statusOrEmpty)) a).1 = .ok stored →
      P (w.state (w.answer (.writeStatus version (change now (w.state a).operator.statusOrEmpty)) a).2))
    (a : σ) (ha : P (w.state a)) : P (w.state (w.after (updateStatus change) a)) :=
  w.repeated_keeps (w.statusAttempt_keeps hwrite) Attempt.retries a ha

theorem observedConfigAttempt_keeps {d : Document} {P : ClusterState → Prop}
    (hwrite : ∀ version a stored, P (w.state a) →
      (w.answer (.writeSpec version { (w.state a).operator.spec with observedConfig := d.toJson }) a).1 =
        .ok stored →
      P (w.state (w.answer (.writeSpec version
        { (w.state a).operator.spec with observedConfig := d.toJson }) a).2))
    (a : σ) (ha : P (w.state a)) : P (w.state (w.after (observedConfigAttempt d) a)) := by
  have htrial := w.trial_observedConfigAttempt d a
  generalize (observedConfigAttempt d).trace w.answer a = l at htrial
  generalize w.after (observedConfigAttempt d) a = b at htrial ⊢
  generalize w.result (observedConfigAttempt d) a = x at htrial
  cases htrial with
  | unread hread | unreadable hread | idle hread =>
    rwa [w.state_of_read hread trivial]
  | @wrote b c r q _ hread _ _ hstored =>
    obtain ⟨rfl, hb⟩ := w.eq_of_read hread
    have hnew := hwrite (w.state a).operator.version b q (hb ▸ ha)
    rw [hb, hstored] at hnew
    exact hnew rfl
  | refused hread _ _ hrefused =>
    rwa [w.state_of_refused hrefused trivial, w.state_of_read hread trivial]

theorem updateObservedConfig_keeps {d : Document} {P : ClusterState → Prop}
    (hwrite : ∀ version a stored, P (w.state a) →
      (w.answer (.writeSpec version { (w.state a).operator.spec with observedConfig := d.toJson }) a).1 =
        .ok stored →
      P (w.state (w.answer (.writeSpec version
        { (w.state a).operator.spec with observedConfig := d.toJson }) a).2))
    (a : σ) (ha : P (w.state a)) : P (w.state (w.after (updateObservedConfig d) a)) :=
  w.repeated_keeps (w.observedConfigAttempt_keeps hwrite) Attempt.retries a ha

end Collaborators

/-- Whoever answers the operator and keeps its records: a spec is stored as it is written, and a write of the
status touches nothing else. -/
structure Recorders (s : Settings) (σ : Type) extends Collaborators s σ where
  spec_written : ∀ version spec x r, (answer (.writeSpec version spec) x).1 = .ok r → r.spec = spec
  status_written : ∀ version status x r, (answer (.writeStatus version status) x).1 = .ok r →
    r.spec = (state x).operator.spec ∧ r.generation = (state x).operator.generation

namespace Recorders

variable {s : Settings} {σ α : Type} (w : Recorders s σ)
variable {change : Instant → OperatorStatus → OperatorStatus}

theorem state_writeStatus_of_ok {version : String} {status : OperatorStatus} {a : σ} {r : OperatorResource}
    (h : (w.answer (.writeStatus version status) a).1 = .ok r) :
    (w.state (w.answer (.writeStatus version status) a).2).view = (w.state a).view ∧
      (w.state (w.answer (.writeStatus version status) a).2).operator.spec = (w.state a).operator.spec ∧
      (w.state (w.answer (.writeStatus version status) a).2).operator.generation =
        (w.state a).operator.generation ∧
      (w.state (w.answer (.writeStatus version status) a).2).operator.statusOrEmpty = status := by
  have hallowed := w.allowed (.writeStatus version status) a
  simp only [Call.Allows, h] at hallowed
  obtain ⟨hview, rfl, hstatus⟩ := hallowed
  obtain ⟨hspec, hgeneration⟩ := w.status_written version status a _ h
  exact ⟨hview, hspec, hgeneration, by simp [OperatorResource.statusOrEmpty, hstatus]⟩

/-- An update of the status touches nothing else, and keeps of the status what the change keeps of it. -/
theorem updateStatus_frame (change : Instant → OperatorStatus → OperatorStatus)
    {Q : OperatorStatus → Prop} (hchange : ∀ now old, Q old → Q (change now old))
    (a : σ) (ha : Q (w.state a).operator.statusOrEmpty) :
    (w.state (w.after (updateStatus change) a)).view = (w.state a).view ∧
      (w.state (w.after (updateStatus change) a)).operator.spec = (w.state a).operator.spec ∧
      (w.state (w.after (updateStatus change) a)).operator.generation = (w.state a).operator.generation ∧
      Q (w.state (w.after (updateStatus change) a)).operator.statusOrEmpty := by
  let P (b : ClusterState) : Prop := b.view = (w.state a).view ∧
    b.operator.spec = (w.state a).operator.spec ∧
    b.operator.generation = (w.state a).operator.generation ∧ Q b.operator.statusOrEmpty
  refine w.updateStatus_keeps (P := P) (fun now version b stored hb hok => ?_) a ⟨rfl, rfl, rfl, ha⟩
  obtain ⟨hview, hspec, hgeneration, hstatus⟩ := w.state_writeStatus_of_ok hok
  obtain ⟨hbview, hbspec, hbgeneration, hbstatus⟩ := hb
  refine ⟨hview.trans hbview, hspec.trans hbspec, hgeneration.trans hbgeneration, ?_⟩
  rw [hstatus]
  exact hchange now _ hbstatus

theorem statusAttempt_of_succeeds {a : σ} (h : w.Succeeds (statusAttempt change) a) :
    (∃ x, w.result (statusAttempt change) a = .finished x) ∧
      (∃ now, (w.state (w.after (statusAttempt change) a)).operator.statusOrEmpty =
        change now (w.state a).operator.statusOrEmpty) ∧
      (w.WritesStatus (statusAttempt change) a ↔
        (w.state (w.after (statusAttempt change) a)).operator.statusOrEmpty ≠
          (w.state a).operator.statusOrEmpty) := by
  have htrial := w.trial_statusAttempt change a
  unfold Collaborators.Succeeds at h
  unfold Collaborators.WritesStatus
  generalize (statusAttempt change).trace w.answer a = l at h htrial ⊢
  generalize w.after (statusAttempt change) a = b at htrial ⊢
  generalize w.result (statusAttempt change) a = x at htrial ⊢
  cases htrial with
  | unread => exact absurd trivial (h _ (List.mem_singleton_self _))
  | @idle _ _ _ now hread hclock hsame =>
    obtain ⟨rfl, hkept⟩ := w.eq_of_read hread
    rw [w.state_of_read hclock trivial, hkept]
    exact ⟨⟨_, rfl⟩, ⟨now, hsame.symm⟩, by simp [Call.IsStatusWrite]⟩
  | @wrote _ _ _ _ _ now hread _ hnew hstored =>
    obtain ⟨rfl, -⟩ := w.eq_of_read hread
    rw [(w.eq_of_written hstored).2]
    exact ⟨⟨_, rfl⟩, ⟨now, rfl⟩, by simp [Call.IsStatusWrite, hnew]⟩
  | refused => exact absurd trivial (h _ (List.mem_of_getLast? rfl))

/-- An update of which no call fails stores the changed status, and writes it unless it is the same. -/
theorem updateStatus_of_succeeds {a : σ} (h : w.Succeeds (updateStatus change) a) :
    (∃ now, (w.state (w.after (updateStatus change) a)).operator.statusOrEmpty =
        change now (w.state a).operator.statusOrEmpty) ∧
      (w.WritesStatus (updateStatus change) a ↔
        (w.state (w.after (updateStatus change) a)).operator.statusOrEmpty ≠
          (w.state a).operator.statusOrEmpty) := by
  simp only [updateStatus, Attempt.retries, Attempt.repeated, Collaborators.succeeds_bind,
    Collaborators.after_bind, Collaborators.writesStatus_bind] at h ⊢
  obtain ⟨⟨x, hx⟩, hstatus, hwrites⟩ := w.statusAttempt_of_succeeds h.1
  rw [hx]
  exact ⟨hstatus, by simpa using hwrites⟩

/-- The changed status is stored, and the update ends with it. -/
structure Stored (change : Instant → OperatorStatus → OperatorStatus) (a b : σ)
    (x : Except Error StatusUpdate) : Prop where
  status : ∃ now, (w.state b).operator.statusOrEmpty = change now (w.state a).operator.statusOrEmpty
  result : ∃ written, x = .ok ((w.state b).operator.statusOrEmpty, written)

/-- The status was to be written, but nothing has come of it. -/
structure Refused (p : Program α) (a : σ) : Prop where
  state : w.state (w.after p a) = w.state a
  writes : w.WritesStatus p a
  unstored : ¬∃ x ∈ p.trace w.answer a, x.call.IsStatusWrite ∧ ¬x.call.Failed x.answer

theorem stored_of_same {now : Instant} {a b : σ} (hkept : w.state b = w.state a)
    (h : change now (w.state a).operator.statusOrEmpty = (w.state a).operator.statusOrEmpty) :
    w.Stored change a b (.ok ((w.state a).operator.statusOrEmpty, false)) :=
  ⟨⟨now, by rw [hkept, h]⟩, false, by rw [hkept]⟩

theorem stored_of_ok {version : String} {now : Instant} {a b c : σ} {q : OperatorResource}
    (h : w.answer (.writeStatus version (change now (w.state a).operator.statusOrEmpty)) b = (.ok q, c)) :
    w.Stored change a c (.ok (q.statusOrEmpty, true)) := by
  obtain ⟨rfl, hstatus⟩ := w.eq_of_written h
  exact ⟨⟨now, hstatus⟩, true, rfl⟩

/-- An attempt stores the changed status, or it has left everything as it was. -/
theorem statusAttempt_cases {a : σ}
    (h : w.FailsOnly (fun c => c.IsProbe ∨ c.IsStatusWrite) (statusAttempt change) a) :
    (∃ x, w.result (statusAttempt change) a = .finished x ∧
        w.Stored change a (w.after (statusAttempt change) a) x) ∨
      w.Refused (statusAttempt change) a := by
  have htrial := w.trial_statusAttempt change a
  unfold Collaborators.FailsOnly at h
  generalize hl : (statusAttempt change).trace w.answer a = l at h htrial
  generalize hb : w.after (statusAttempt change) a = b at htrial ⊢
  generalize w.result (statusAttempt change) a = x at htrial ⊢
  cases htrial with
  | unread => exact (h _ (List.mem_singleton_self _) trivial).elim False.elim False.elim
  | idle hread hclock hsame =>
    obtain ⟨rfl, hkept⟩ := w.eq_of_read hread
    exact .inl ⟨_, rfl, w.stored_of_same ((w.state_of_read hclock trivial).trans hkept) hsame⟩
  | wrote hread _ _ hstored =>
    obtain ⟨rfl, -⟩ := w.eq_of_read hread
    exact .inl ⟨_, rfl, w.stored_of_ok hstored⟩
  | refused hread hclock _ hrefused =>
    refine .inr ⟨?_, ?_, ?_⟩
    · rw [hb, w.state_of_refused hrefused trivial, w.state_of_read hclock trivial, w.state_of_read hread trivial]
    · rw [Collaborators.WritesStatus, hl]
      exact ⟨_, List.mem_of_getLast? rfl, trivial⟩
    · rw [hl]
      simp [Call.IsStatusWrite, Call.Failed]

theorem stored_of_completes {a : σ} (h : w.Completes (updateStatus change) a) :
    w.Stored change a (w.after (updateStatus change) a) (w.result (updateStatus change) a) := by
  unfold updateStatus at h ⊢
  generalize Attempt.retries = n at h ⊢
  induction n generalizing a with
  | zero =>
    have hattempt : w.Completes (statusAttempt change) a := by
      refine h.of_pure fun x => ?_
      cases x <;> exact ⟨_, rfl⟩
    rcases w.statusAttempt_cases hattempt.fails with ⟨x, hresult, hstored⟩ | hrefused
    · simp only [Attempt.repeated, Collaborators.result_bind, Collaborators.after_bind, hresult]
      exact hstored
    · exact absurd (hattempt.records hrefused.writes) hrefused.unstored
  | succ n ih =>
    have hfails := ((w.failsOnly_bind _ _ a).1 h.fails).1
    rcases w.statusAttempt_cases hfails with ⟨x, hresult, hstored⟩ | hrefused
    · simp only [Attempt.repeated, Collaborators.result_bind, Collaborators.after_bind, hresult]
      exact hstored
    · -- nothing has been written, so there is another attempt
      have hrest := h.rest hrefused.unstored
      cases hresult : w.result (statusAttempt change) a with
      | finished x =>
        have hran : ((statusAttempt change).run w.answer a).1 = .finished x := hresult
        obtain ⟨y, hy, hstored⟩ := h.records ((w.writesStatus_bind _ _ a).2 (.inl hrefused.writes))
        rw [Attempt.repeated, Program.trace_bind, hran] at hy
        simp only [Program.trace_pure, List.append_nil] at hy
        exact absurd ⟨y, hy, hstored⟩ hrefused.unstored
      | conflicted e =>
        rw [hresult] at hrest
        obtain ⟨-, hagain⟩ := hrest.part (.ask id)
        have hslept : w.state (w.after (Program.ask (.sleep Attempt.pause)) (w.after (statusAttempt change) a)) =
            w.state a := (w.state_reading (c := .sleep Attempt.pause) trivial _).trans hrefused.state
        obtain ⟨⟨now, hstatus⟩, hend⟩ := ih hagain
        rw [hslept] at hstatus
        simp only [Attempt.repeated, Collaborators.result_bind, Collaborators.after_bind, hresult]
        exact ⟨⟨now, hstatus⟩, hend⟩

end Recorders

end RolloutControl
