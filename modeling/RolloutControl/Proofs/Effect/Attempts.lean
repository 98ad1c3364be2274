import Mathlib.Data.List.Basic
import RolloutControl.Proofs.Effect.Stages
import RolloutControl.Proofs.Effect.Update
/-! How an update of the operator resource goes, attempt by attempt, whatever it is answered and whoever else writes
in between. There are six attempts at most, 10 ms apart. Each of them reads the resource first, and writes nothing but
the change of what it has read, on top of the version that it has read. -/

namespace RolloutControl

abbrev Exchange : Type := Sigma Call.Answer

namespace Exchange

def IsWrite (x : Exchange) : Prop := x.1.IsSpecWrite ∨ x.1.IsStatusWrite

instance : DecidablePred IsWrite := fun x => inferInstanceAs (Decidable (x.1.IsSpecWrite ∨ x.1.IsStatusWrite))

/-- The call is answered with an error. -/
def Failed (x : Exchange) : Prop := x.1.Failed x.2

end Exchange

def Call.error? : (c : Call) → c.Answer → Option Error
  | .getOperator, .error e | .writeSpec _ _, .error e | .writeStatus _ _, .error e => some e
  | .applyManifest _, .error e | .applyConfigMap _, .error e | .applySecret _, .error e => some e
  | .applyDeployment _ _ _, .error e | .probe _, .error e => some e
  | _, _ => none

def errorOf? {α : Type} : Except Error α → Option Error
  | .ok _ => none
  | .error e => some e

def Step.exchange {σ : Type} (x : Step σ) : Exchange := ⟨x.call, x.answer⟩

namespace Program

variable {α β σ : Type} (world : World σ)

def exchanges (p : Program α) (a : σ) : List Exchange := (p.trace world a).map Step.exchange

@[simp] theorem exchanges_pure (x : α) (a : σ) : (pure x : Program α).exchanges world a = [] := rfl

@[simp] theorem exchanges_ask (c : Call) (a : σ) : (ask c).exchanges world a = [⟨c, (world c a).1⟩] := rfl

@[simp] theorem exchanges_bind (p : Program α) (f : α → Program β) (a : σ) :
    (p >>= f).exchanges world a =
      p.exchanges world a ++ (f (p.run world a).1).exchanges world (p.run world a).2 := by
  simp [exchanges]

def lastError? (p : Program α) (a : σ) : Option Error :=
  (p.exchanges world a).getLast?.bind fun x => x.1.error? x.2

theorem lastError?_of_trace {p : Program α} {q : Program β} {a b : σ} {l : List (Step σ)}
    (h : p.trace world a = l ++ q.trace world b) (hne : q.trace world b ≠ []) :
    p.lastError? world a = q.lastError? world b := by
  have hmapped : p.exchanges world a = l.map Step.exchange ++ q.exchanges world b := by
    rw [exchanges, h, List.map_append]
    rfl
  have hlast : q.exchanges world b ≠ [] := List.map_eq_nil_iff.not.2 hne
  rw [lastError?, hmapped, List.getLast?_append_of_ne_nil _ hlast]
  rfl

end Program

namespace Update

/-- What a change is made at: the time, if it depends on that. -/
abbrev Moment : Update → Type
  | .status _ _ => Instant
  | .observedConfig _ => Unit

/-- The calls between reading and writing. -/
def looks : (u : Update) → u.Moment → List Exchange
  | .status _ _, now => [⟨.clock, now⟩]
  | .observedConfig _, _ => []

def writes : (u : Update) → u.Moment → OperatorResource → Except Error OperatorResource → Exchange
  | .status _ change, now, r, x => ⟨.writeStatus r.version (change now r.statusOrEmpty), x⟩
  | .observedConfig d, _, r, x => ⟨.writeSpec r.version { r.spec with observedConfig := d.toJson }, x⟩

def finds : (u : Update) → OperatorResource → Except Error u.Value
  | .status _ _, r => .ok r.statusOrEmpty
  | .observedConfig _, r => Document.ofJson r.spec.observedConfig

def Satisfied : (u : Update) → u.Moment → u.Value → Prop
  | .status _ change, now, v => change now v = v
  | .observedConfig d, _, v => v.same d = true

def attempt : (u : Update) → Program (Attempt (u.Value × Bool))
  | .status _ change => statusAttempt change
  | .observedConfig d => observedConfigAttempt d

theorem program_eq (u : Update) : u.program = Attempt.repeated u.attempt Attempt.retries := by
  cases u <;> rfl

end Update

/-- One attempt of an update, by what it is answered. -/
inductive Effort (u : Update)
  /-- The resource cannot be read. -/
  | blind (e : Error)
  /-- Nothing is written. -/
  | idle (r : OperatorResource) (now : u.Moment)
  | wrote (r : OperatorResource) (now : u.Moment) (answer : Except Error OperatorResource)

namespace Effort

variable {u : Update}

def calls : Effort u → List Exchange
  | .blind e => [⟨.getOperator, .error e⟩]
  | .idle r now => ⟨.getOperator, .ok r⟩ :: u.looks now
  | .wrote r now x => ⟨.getOperator, .ok r⟩ :: (u.looks now ++ [u.writes now r x])

/-- Something is written exactly if the value that was read is not yet what is asked for. -/
def Warranted : Effort u → Prop
  | .blind _ => True
  | .idle r now => ∀ v, u.finds r = .ok v → u.Satisfied now v
  | .wrote r now _ => ∃ v, u.finds r = .ok v ∧ ¬u.Satisfied now v

/-- The write is refused with the code for conflicts. -/
def Conflicts : Effort u → Prop
  | .wrote _ _ (.error (.api failure)) => failure.code = 409
  | _ => False

/-- How an update may end of which this is the last attempt. -/
def Ends : Effort u → u.Result → Prop
  | .blind e, x => x = .error e
  | .idle r _, x => x = (u.finds r).map (·, false)
  | .wrote r _ (.ok q), x => ∃ v, u.Tells r q v ∧ x = .ok (v, true)
  | .wrote _ _ (.error e), x => x = .error e

def Leads (f : Effort u) : Attempt (u.Value × Bool) → Prop
  | .finished x => ¬f.Conflicts ∧ f.Ends x
  | .conflicted e => f.Conflicts ∧ f.Ends (.error e)

theorem conflicts_iff {r : OperatorResource} {now : u.Moment} {e : Error} :
    (wrote r now (.error e)).Conflicts ↔ e.isConflict = true := by
  cases e with
  | api failure => exact (beq_iff_eq (a := failure.code) (b := 409)).symm
  | _ => simp [Conflicts, Error.isConflict]

theorem leads_of_error (r : OperatorResource) (now : u.Moment) (e : Error) :
    (wrote r now (.error e)).Leads (if e.isConflict then .conflicted e else .finished (.error e)) := by
  by_cases h : e.isConflict = true
  · rw [if_pos h]
    exact ⟨conflicts_iff.2 h, rfl⟩
  · rw [if_neg h]
    exact ⟨fun hf => h (conflicts_iff.1 hf), rfl⟩

theorem writes_calls_le (f : Effort u) : f.calls.countP (·.IsWrite) ≤ 1 := by
  cases f with
  | blind e => exact Nat.zero_le 1
  | idle r now => cases u <;> exact Nat.zero_le 1
  | wrote r now x => cases u <;> exact Nat.le_refl 1

theorem not_isWrite_getOperator (y : Except Error OperatorResource) : ¬Exchange.IsWrite ⟨.getOperator, y⟩ :=
  not_or.2 ⟨id, id⟩

theorem not_isWrite_of_mem_looks {now : u.Moment} {x : Exchange} (hx : x ∈ u.looks now) : ¬x.IsWrite := by
  cases u with
  | status =>
    obtain rfl := List.mem_singleton.1 hx
    exact not_or.2 ⟨id, id⟩
  | observedConfig => exact absurd hx List.not_mem_nil

theorem eq_writes_of_mem {f : Effort u} {x : Exchange} (hx : x ∈ f.calls) (hwrite : x.IsWrite) :
    ∃ r now answer, f = .wrote r now answer ∧ x = u.writes now r answer := by
  cases f with
  | blind e =>
    obtain rfl := List.mem_singleton.1 hx
    exact absurd hwrite (not_isWrite_getOperator _)
  | idle r now =>
    rcases List.mem_cons.1 hx with rfl | hx
    · exact absurd hwrite (not_isWrite_getOperator _)
    · exact absurd hwrite (not_isWrite_of_mem_looks hx)
  | wrote r now answer =>
    rcases List.mem_cons.1 hx with rfl | hx
    · exact absurd hwrite (not_isWrite_getOperator _)
    rcases List.mem_append.1 hx with hx | hx
    · exact absurd hwrite (not_isWrite_of_mem_looks hx)
    · exact ⟨r, now, answer, rfl, List.mem_singleton.1 hx⟩

theorem failed_writes (r : OperatorResource) (now : u.Moment) (e : Error) :
    (u.writes now r (.error e)).Failed := by
  cases u <;> exact trivial

theorem failed_of_conflicts {f : Effort u} (h : f.Conflicts) {x : Exchange} (hx : x ∈ f.calls)
    (hwrite : x.IsWrite) : x.Failed := by
  obtain ⟨r, now, answer, rfl, rfl⟩ := eq_writes_of_mem hx hwrite
  cases answer with
  | ok q => exact h.elim
  | error e => exact failed_writes r now e

theorem failed_of_ends {f : Effort u} {e : Error} (h : f.Ends (.error e)) {x : Exchange} (hx : x ∈ f.calls)
    (hwrite : x.IsWrite) : x.Failed := by
  obtain ⟨r, now, answer, rfl, rfl⟩ := eq_writes_of_mem hx hwrite
  cases answer with
  | ok q =>
    obtain ⟨v, -, hv⟩ := h
    cases hv
  | error e => exact failed_writes r now e

end Effort

namespace Update

variable {σ : Type} (world : Program.World σ)

theorem exists_effort_status (author : Controller) (change : Instant → OperatorStatus → OperatorStatus) (a : σ) :
    ∃ f : Effort (.status author change), f.Warranted ∧ (statusAttempt change).exchanges world a = f.calls ∧
      f.Leads ((statusAttempt change).run world a).1 := by
  have htrial := trial_statusAttempt world change a
  unfold Program.exchanges
  generalize (statusAttempt change).trace world a = l at htrial ⊢
  generalize ((statusAttempt change).run world a).2 = b at htrial
  generalize ((statusAttempt change).run world a).1 = x at htrial ⊢
  cases htrial with
  | unread => exact ⟨.blind _, trivial, rfl, id, rfl⟩
  | @idle _ _ r now _ _ hsame =>
    refine ⟨.idle r now, fun v hv => ?_, rfl, id, rfl⟩
    obtain rfl := Except.ok.inj hv
    exact hsame
  | @wrote _ _ _ r q now _ _ hnew => exact ⟨.wrote r now (.ok q), ⟨_, rfl, hnew⟩, rfl, id, _, rfl, rfl⟩
  | @refused _ _ _ r now e _ _ hnew =>
    exact ⟨.wrote r now (.error e), ⟨_, rfl, hnew⟩, rfl,
      Effort.leads_of_error (u := .status author change) r now e⟩

theorem exists_effort_observedConfig (d : Document) (a : σ) :
    ∃ f : Effort (.observedConfig d), f.Warranted ∧ (observedConfigAttempt d).exchanges world a = f.calls ∧
      f.Leads ((observedConfigAttempt d).run world a).1 := by
  have htrial := trial_observedConfigAttempt world d a
  unfold Program.exchanges
  generalize (observedConfigAttempt d).trace world a = l at htrial ⊢
  generalize ((observedConfigAttempt d).run world a).2 = b at htrial
  generalize ((observedConfigAttempt d).run world a).1 = x at htrial ⊢
  cases htrial with
  | unread => exact ⟨.blind _, trivial, rfl, id, rfl⟩
  | @unreadable _ r _ _ hfound =>
    refine ⟨.idle r (), fun v hv => ?_, rfl, id, (congrArg (Except.map (·, false)) hfound).symm⟩
    cases hfound.symm.trans hv
  | @idle _ r _ _ hfound hsame =>
    refine ⟨.idle r (), fun v hv => ?_, rfl, id, (congrArg (Except.map (·, false)) hfound).symm⟩
    obtain rfl := Except.ok.inj (hfound.symm.trans hv)
    exact hsame
  | @wrote _ _ r q previous _ hfound hnew =>
    exact ⟨.wrote r () (.ok q), ⟨previous, hfound, hnew⟩, rfl, id, previous, hfound, rfl⟩
  | @refused _ _ r previous e _ hfound hnew =>
    exact ⟨.wrote r () (.error e), ⟨previous, hfound, hnew⟩, rfl,
      Effort.leads_of_error (u := .observedConfig d) r () e⟩

theorem exists_effort (u : Update) (a : σ) :
    ∃ f : Effort u, f.Warranted ∧ u.attempt.exchanges world a = f.calls ∧ f.Leads (u.attempt.run world a).1 := by
  cases u with
  | status author change => exact exists_effort_status world author change a
  | observedConfig d => exact exists_effort_observedConfig world d a

/-- An update that makes these calls and ends like this has made some attempts that met conflicts, at most so many,
and a last one. Only the last of as many attempts as there may be is left alone with its conflict. -/
structure Tried (u : Update) (retries : Nat) (made : List Exchange) (x : u.Result) (failed : List (Effort u))
    (last : Effort u) : Prop where
  calls : made = failed.flatMap (fun f => f.calls ++ [⟨.sleep 10, ()⟩]) ++ last.calls
  bounded : failed.length ≤ retries
  conflicts : ∀ f ∈ failed, f.Conflicts
  exhausted : last.Conflicts → failed.length = retries
  warranted : ∀ f ∈ last :: failed, f.Warranted
  ends : last.Ends x

namespace Tried

variable {u : Update} {retries : Nat} {made : List Exchange} {x : u.Result} {failed : List (Effort u)} {last : Effort u}

theorem writes_le (h : u.Tried retries made x failed last) : made.countP (·.IsWrite) ≤ retries + 1 := by
  have hfailed : (failed.flatMap fun f => f.calls ++ [⟨.sleep 10, ()⟩]).countP (·.IsWrite) ≤ failed.length := by
    clear h
    induction failed with
    | nil => exact Nat.le_refl 0
    | cons f l ih =>
      have hpause : [(⟨.sleep 10, ()⟩ : Exchange)].countP (Exchange.IsWrite ·) = 0 := rfl
      simp only [List.flatMap_cons, List.countP_append, List.length_cons, hpause]
      have := f.writes_calls_le
      omega
  rw [h.calls, List.countP_append]
  exact Nat.add_le_add (Nat.le_trans hfailed h.bounded) last.writes_calls_le

theorem failed_of_error {e : Error} (h : u.Tried retries made (.error e) failed last) {y : Exchange}
    (hy : y ∈ made) (hwrite : y.IsWrite) : y.Failed := by
  rw [h.calls, List.mem_append, List.mem_flatMap] at hy
  rcases hy with ⟨f, hf, hy⟩ | hy
  · rcases List.mem_append.1 hy with hy | hy
    · exact Effort.failed_of_conflicts (h.conflicts f hf) hy hwrite
    · obtain rfl := List.mem_singleton.1 hy
      exact (not_or.2 ⟨id, id⟩ hwrite).elim
  · exact Effort.failed_of_ends h.ends hy hwrite

end Tried

theorem exists_tried_repeated (u : Update) (n : Nat) (a : σ) :
    ∃ failed last, u.Tried n ((Attempt.repeated u.attempt n).exchanges world a)
      ((Attempt.repeated u.attempt n).run world a).1 failed last := by
  -- on the attempts that are left: the first one ends the update, or it conflicts and the others follow
  induction n generalizing a with
  | zero =>
    obtain ⟨f, hwarranted, hcalls, hleads⟩ := exists_effort world u a
    refine ⟨[], f, ?_, Nat.le_refl 0, by simp, fun _ => rfl, by simpa using hwarranted, ?_⟩
    · rw [Attempt.repeated, Program.exchanges_bind, hcalls]
      cases (u.attempt.run world a).1 <;> simp
    · rw [Attempt.repeated, Program.run_bind]
      generalize u.attempt.run world a = y at hleads ⊢
      obtain ⟨x | e, b⟩ := y
      · exact hleads.2
      · exact hleads.2
  | succ n ih =>
    obtain ⟨f, hwarranted, hcalls, hleads⟩ := exists_effort world u a
    rw [Attempt.repeated, Program.exchanges_bind, Program.run_bind, hcalls]
    generalize u.attempt.run world a = y at hleads ⊢
    obtain ⟨x | e, b⟩ := y
    · exact ⟨[], f, by simp, Nat.zero_le _, by simp, fun h => absurd h hleads.1, by simpa using hwarranted,
        hleads.2⟩
    · simp only [Program.exchanges_bind, Program.run_bind]
      rw [Program.exchanges_ask, Program.run_ask]
      obtain ⟨failed, last, hrest⟩ := ih (world (.sleep Attempt.pause) b).2
      refine ⟨f :: failed, last, ?_, ?_, ?_, fun h => ?_, ?_, hrest.ends⟩
      · rw [hrest.calls]
        simp [Attempt.pause]
      · exact Nat.succ_le_succ hrest.bounded
      · exact List.forall_mem_cons.2 ⟨hleads.1, hrest.conflicts⟩
      · exact congrArg Nat.succ (hrest.exhausted h)
      · obtain ⟨hlast, hfailed⟩ := List.forall_mem_cons.1 hrest.warranted
        exact List.forall_mem_cons.2 ⟨hlast, List.forall_mem_cons.2 ⟨hwarranted, hfailed⟩⟩

theorem exists_tried (u : Update) (a : σ) :
    ∃ failed last, u.Tried 5 (u.program.exchanges world a) (u.program.run world a).1 failed last := by
  rw [program_eq]
  exact exists_tried_repeated world u Attempt.retries a

theorem failed_of_error {u : Update} {a : σ} {e : Error} (h : (u.program.run world a).1 = .error e) {x : Exchange}
    (hx : x ∈ u.program.exchanges world a) (hwrite : x.IsWrite) : x.Failed := by
  obtain ⟨failed, last, htried⟩ := exists_tried world u a
  rw [h] at htried
  exact htried.failed_of_error hx hwrite

/-- Every update is made of at most six attempts, and it is all or nothing: if it ends with an error, each of its
writes has failed, and whatever only a write changes that succeeds is as before. -/
theorem bounded_and_atomic (u : Update) (a : σ) :
    (∃ failed last, u.Tried 5 (u.program.exchanges world a) (u.program.run world a).1 failed last) ∧
      (u.program.exchanges world a).countP (·.IsWrite) ≤ 6 ∧
      ∀ e, (u.program.run world a).1 = .error e →
        (∀ x ∈ u.program.exchanges world a, x.IsWrite → x.Failed) ∧
          ∀ (τ : Type) (mark : σ → τ),
            (∀ c b, mark (world c b).2 ≠ mark b →
              Exchange.IsWrite ⟨c, (world c b).1⟩ ∧ ¬Exchange.Failed ⟨c, (world c b).1⟩) →
            mark (u.program.run world a).2 = mark a := by
  obtain ⟨failed, last, htried⟩ := exists_tried world u a
  refine ⟨⟨failed, last, htried⟩, htried.writes_le, fun e he => ⟨fun x hx => ?_, fun τ mark hmark => ?_⟩⟩
  · exact failed_of_error world he hx
  · refine Program.run_keeps_of_trace world mark fun x hx => ?_
    by_cases hkept : mark x.after = mark x.before
    · exact hkept
    · obtain ⟨hanswer, hafter⟩ := Program.step_of_mem_trace world hx
      obtain ⟨hwrite, hok⟩ := hmark x.call x.before (hafter ▸ hkept)
      rw [← hanswer] at hwrite hok
      exact absurd (failed_of_error world he (List.mem_map_of_mem hx) hwrite) hok

end Update

namespace Program

variable {σ : Type} (world : World σ) (change : Instant → OperatorStatus → OperatorStatus) (a : σ)

/-- An update of the status ends with the error of its last call, or without one. -/
theorem lastError?_updateStatus : (updateStatus change).lastError? world a =
    errorOf? ((updateStatus change).run world a).1 := by
  obtain ⟨failed, last, htried⟩ := Update.exists_tried world (.status .workload change) a
  have hcalls := htried.calls
  have hends := htried.ends
  have hne : last.calls ≠ [] := by cases last <;> exact List.cons_ne_nil _ _
  change (updateStatus change).exchanges world a = _ at hcalls
  change last.Ends ((updateStatus change).run world a).1 at hends
  rw [lastError?, hcalls, List.getLast?_append_of_ne_nil _ hne]
  cases last with
  | blind e =>
    rw [show ((updateStatus change).run world a).1 = _ from hends]
    rfl
  | idle r now =>
    rw [show ((updateStatus change).run world a).1 = _ from hends]
    rfl
  | wrote r now x =>
    cases x with
    | error e =>
      rw [show ((updateStatus change).run world a).1 = _ from hends]
      rfl
    | ok q =>
      obtain ⟨v, -, hv⟩ := hends
      rw [hv]
      rfl

theorem trace_updateStatus_ne_nil : (updateStatus change).trace world a ≠ [] := by
  rw [updateStatus, Attempt.retries, Attempt.repeated, statusAttempt, bind_assoc]
  exact List.cons_ne_nil _ _

end Program

namespace Collaborators

variable {s : Settings} {σ : Type} (w : Collaborators s σ) (change : Instant → OperatorStatus → OperatorStatus)

/-- The changed status is stored, or everything is as before. -/
inductive Settles (a b : σ) : Except Error StatusUpdate → Prop
  | stored (now : Instant) (written : Bool)
      (h : (w.state b).operator.statusOrEmpty = change now (w.state a).operator.statusOrEmpty) :
      Settles a b (.ok ((w.state b).operator.statusOrEmpty, written))
  | failed (e : Error) (h : w.state b = w.state a) : Settles a b (.error e)

/-- An attempt that ends in a conflict has changed nothing. -/
def SettlesAttempt (a b : σ) : Attempt StatusUpdate → Prop
  | .finished x => w.Settles change a b x
  | .conflicted _ => w.state b = w.state a

theorem settles_statusAttempt (a : σ) :
    w.SettlesAttempt change a (w.after (statusAttempt change) a) (w.result (statusAttempt change) a) := by
  have htrial := w.trial_statusAttempt change a
  generalize (statusAttempt change).trace w.answer a = l at htrial
  generalize w.after (statusAttempt change) a = b at htrial ⊢
  generalize w.result (statusAttempt change) a = x at htrial ⊢
  cases htrial with
  | unread hread => exact .failed _ (w.state_of_read hread trivial)
  | @idle _ _ _ now hread hclock hsame =>
    obtain ⟨rfl, hasked⟩ := w.eq_of_read hread
    have hkept : w.state b = w.state a := (w.state_of_read hclock trivial).trans hasked
    rw [← hkept]
    exact .stored now false (by rw [hkept, hsame])
  | @wrote _ _ _ _ _ now hread _ _ hstored =>
    obtain ⟨rfl, -⟩ := w.eq_of_read hread
    obtain ⟨rfl, hstatus⟩ := w.eq_of_written hstored
    exact .stored now true hstatus
  | refused hread hclock _ hrefused =>
    have hkept := (w.state_of_refused hrefused trivial).trans
      ((w.state_of_read hclock trivial).trans (w.state_of_read hread trivial))
    split
    · exact hkept
    · exact .failed _ hkept

theorem settles_updateStatus (a : σ) :
    w.Settles change a (w.after (updateStatus change) a) (w.result (updateStatus change) a) := by
  unfold updateStatus
  generalize Attempt.retries = n
  induction n generalizing a with
  | zero =>
    have hattempt := w.settles_statusAttempt change a
    simp only [Attempt.repeated, after_bind, result_bind]
    generalize w.after (statusAttempt change) a = b at hattempt ⊢
    generalize w.result (statusAttempt change) a = x at hattempt ⊢
    cases x with
    | finished x => exact hattempt
    | conflicted e => exact .failed e hattempt
  | succ n ih =>
    have hattempt := w.settles_statusAttempt change a
    simp only [Attempt.repeated, after_bind, result_bind]
    generalize w.after (statusAttempt change) a = b at hattempt ⊢
    generalize w.result (statusAttempt change) a = x at hattempt ⊢
    cases x with
    | finished x => exact hattempt
    | conflicted e =>
      have hslept : w.state (w.after (Program.ask (.sleep Attempt.pause)) b) = w.state a :=
        (w.state_reading (c := .sleep Attempt.pause) trivial b).trans hattempt
      simp only [after_bind, result_bind]
      have hrest := ih (w.after (Program.ask (.sleep Attempt.pause)) b)
      revert hrest
      generalize w.after (Program.ask (.sleep Attempt.pause)) b = c at hslept ⊢
      generalize w.after (Attempt.repeated (statusAttempt change) n) c = d
      generalize w.result (Attempt.repeated (statusAttempt change) n) c = x
      rintro (⟨now, written, h⟩ | ⟨e, h⟩)
      · exact .stored now written (by rw [h, hslept])
      · exact .failed e (h.trans hslept)

end Collaborators

end RolloutControl
