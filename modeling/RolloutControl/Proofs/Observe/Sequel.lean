import RolloutControl.Proofs.Observe.Repetition
import RolloutControl.Proofs.Observe.Stability
/-! Two cycles of the observers with nothing in between. The first one leaves a document behind that is
stable, so the second one has nothing to write and nothing to tell. -/

namespace RolloutControl

namespace Observer

variable {sources : Facts → List DeployedSource} {order : List Nat} {existing : Document}

variable {s : Settings} {σ α : Type} (w : Recorders s σ)

def Has (a : ClusterState) (d : Document) : Prop := Document.ofJson a.operator.spec.observedConfig = .ok d

def IsWrite (c : Call) : Prop := c.IsSpecWrite ∨ c.IsStatusWrite

instance : DecidablePred IsWrite := fun c => inferInstanceAs (Decidable (c.IsSpecWrite ∨ c.IsStatusWrite))

theorem not_isWrite_getOperator : ¬IsWrite .getOperator := by
  rintro (h | h) <;> exact h

def Tends (c : Call) : Prop := Collaborators.Reading c ∨ IsWrite c

/-- A call that reads, writes the status or stores this document. -/
def Stores (d : Document) (c : Call) : Prop :=
  Collaborators.Reading c ∧ ¬c.IsProbe ∨ c.IsStatusWrite ∨
    ∃ version spec, c = .writeSpec version spec ∧ spec.observedConfig = d.toJson

theorem Stores.tends {d : Document} {c : Call} (h : Stores d c) : Tends c ∧ ¬c.IsProbe := by
  rcases h with ⟨hreading, hprobe⟩ | hstatus | ⟨version, spec, rfl, -⟩
  · exact ⟨.inl hreading, hprobe⟩
  · exact ⟨.inr (.inr hstatus), fun hprobe => hprobe.not_isStatusWrite hstatus⟩
  · exact ⟨.inr (.inl trivial), id⟩

theorem Stores.of_isSpecWrite {d : Document} {c : Call} (h : Stores d c) (hwrite : c.IsSpecWrite) :
    ∃ version spec, c = .writeSpec version spec ∧ spec.observedConfig = d.toJson := by
  rcases h with ⟨hreading, -⟩ | hstatus | hstores
  · cases c with
    | writeSpec => exact hreading.elim
    | _ => exact hwrite.elim
  · cases c with
    | writeSpec => exact hstatus.elim
    | _ => exact hwrite.elim
  · exact hstores

/-- A call that does not store a document, and tells nobody that one has been stored. -/
def Silent (c : Call) : Prop := ¬c.IsSpecWrite ∧ ∀ e, c = .publish e → Warns e

theorem silent_updatesStatus {c : Call} (h : c.UpdatesStatus) : Silent c := by
  cases c with
  | getOperator | clock | sleep | writeStatus => exact ⟨id, nofun⟩
  | _ => exact h.elim

theorem uses_store (d : Document) : (store d).Uses (Stores d) :=
  uses_store_of (.inl ⟨trivial, id⟩) (.inl ⟨trivial, id⟩) (fun _ => .inl ⟨trivial, id⟩)
    fun version spec h => .inr (.inr ⟨version, spec, rfl, h⟩)

theorem uses_storeIfNew (existing d : Document) : (storeIfNew existing d).Uses (Stores d) := by
  unfold storeIfNew
  split
  · exact .pure _
  · exact uses_store d

theorem uses_conclude (l : List String) : (conclude l).Uses Call.UpdatesStatus := by
  refine .bind (updatesStatus_updateStatus _) fun x => ?_
  cases x <;> exact .pure _

/-- What a cycle does once it has looked around. -/
def renewWith (existing : Document) (seen : Observation) : Program (Except Error Action) := do
  publishAll seen.events
  let failed ← storeIfNew existing seen.config
  conclude ((seen.errors ++ failed).map (·.message))

theorem uses_renewWith (existing : Document) (seen : Observation) :
    (renewWith existing seen).Uses (Stores seen.config) := by
  refine .bind (Program.uses_publishAll fun _ _ => .inl ⟨trivial, id⟩) fun _ => ?_
  refine .bind (uses_storeIfNew existing seen.config) fun failed => (uses_conclude _).mono fun c hc => ?_
  cases c with
  | getOperator | clock | sleep => exact .inl ⟨trivial, id⟩
  | writeStatus => exact .inr (.inl trivial)
  | _ => exact hc.elim

theorem renew_eq (observers : List Observer) (settings : Settings) (order : List Nat) (existing : Document) :
    renew observers settings order existing =
      view >>= fun v => renewWith existing (observeIn observers order ⟨v, settings⟩ existing) := rfl

theorem uses_cycle (observers : List Observer) (settings : Settings) (order : List Nat) :
    (cycle observers settings order).Uses fun c => Tends c ∧ ¬c.IsProbe := by
  rw [cycle_eq]
  refine .bind (.ask ⟨.inl trivial, id⟩) fun x => ?_
  cases x with
  | error e => exact .pure _
  | ok operator =>
    dsimp only
    split
    · exact .pure _
    · cases hread : Document.ofJson operator.spec.observedConfig with
      | error e => simpa only [hread] using .pure _
      | ok existing =>
        simp only [renew_eq]
        exact .bind (.ask ⟨.inl trivial, id⟩) fun v => (uses_renewWith existing _).mono fun _ => Stores.tends

theorem state_stored {version : String} {spec : OperatorSpec} {a : σ} {d : Document}
    (hspec : spec.observedConfig = d.toJson) (h : ¬Call.Failed (.writeSpec version spec)
      (w.answer (.writeSpec version spec) a).1) :
    Has (w.state (w.answer (.writeSpec version spec) a).2) d := by
  have hallowed := w.allowed (.writeSpec version spec) a
  cases hx : (w.answer (.writeSpec version spec) a).1 with
  | error e => simp [hx, Call.Failed] at h
  | ok r =>
    simp only [Call.Allows, hx] at hallowed
    obtain ⟨-, rfl, -⟩ := hallowed
    have hwritten := w.spec_written _ _ a _ hx
    unfold Has
    rw [hwritten, hspec]
    simp [Document.ofJson]

theorem spec_unwritten {c : Call} (hc : Tends c) (hwrite : ¬c.IsSpecWrite) (a : σ) :
    (w.state (w.answer c a).2).operator.spec = (w.state a).operator.spec ∧
      (w.state (w.answer c a).2).operator.generation = (w.state a).operator.generation := by
  rcases hc with hreading | hspec | hstatus
  · rw [w.state_reading hreading]
    exact ⟨rfl, rfl⟩
  · exact absurd hspec hwrite
  · cases c with
    | writeStatus version status =>
      cases hx : (w.answer (.writeStatus version status) a).1 with
      | error e =>
        rw [w.state_writeStatus_of_error hx]
        exact ⟨rfl, rfl⟩
      | ok r =>
        obtain ⟨-, hspec, hgeneration, -⟩ := w.state_writeStatus_of_ok hx
        exact ⟨hspec, hgeneration⟩
    | _ => exact hstatus.elim

theorem spec_of_unwritten {p : Program α} (hp : p.Uses fun c => Tends c ∧ ¬c.IsProbe) {a : σ}
    (h : ∀ x ∈ p.trace w.answer a, ¬x.call.IsSpecWrite) :
    (w.state (w.after p a)).operator.spec = (w.state a).operator.spec ∧
      (w.state (w.after p a)).operator.generation = (w.state a).operator.generation := by
  have hstep {x : Step σ} (hx : x ∈ p.trace w.answer a) :
      (w.state x.after).operator.spec = (w.state x.before).operator.spec ∧
        (w.state x.after).operator.generation = (w.state x.before).operator.generation := by
    rw [(Program.step_of_mem_trace w.answer hx).2]
    exact spec_unwritten w (hp.mem_trace w.answer hx).1 (h x hx) x.before
  exact ⟨Program.run_keeps_of_trace w.answer (fun b => (w.state b).operator.spec) fun x hx => (hstep hx).1,
    Program.run_keeps_of_trace w.answer (fun b => (w.state b).operator.generation) fun x hx => (hstep hx).2⟩

theorem has_of_stores {d : Document} {c : Call} (hc : Stores d c) (a : σ) (h : Has (w.state a) d) :
    Has (w.state (w.answer c a).2) d := by
  by_cases hwrite : c.IsSpecWrite
  · obtain ⟨version, spec, rfl, hspec⟩ := hc.of_isSpecWrite hwrite
    by_cases hfailed : Call.Failed (.writeSpec version spec) (w.answer (.writeSpec version spec) a).1
    · unfold Has
      rwa [w.state_of_failed hfailed]
    · exact state_stored w hspec hfailed
  · unfold Has
    rwa [(spec_unwritten w hc.tends.1 hwrite a).1]

theorem view_of_tends {c : Call} (hc : Tends c) (a : σ) :
    (w.state (w.answer c a).2).view = (w.state a).view := by
  have hallowed := w.allowed c a
  rcases hc with hreading | hspec | hstatus
  · rw [w.state_reading hreading]
  · cases c with
    | writeSpec version spec =>
      cases hx : (w.answer (.writeSpec version spec) a).1 <;> simp only [Call.Allows, hx] at hallowed
      · rw [hallowed]
      · exact hallowed.1
    | _ => exact hspec.elim
  · cases c with
    | writeStatus version status =>
      cases hx : (w.answer (.writeStatus version status) a).1 <;> simp only [Call.Allows, hx] at hallowed
      · rw [hallowed]
      · exact hallowed.1
    | _ => exact hstatus.elim

/-- The document that is there is written, unless no attempt succeeds. -/
def Lasts (p : Program α) (a : σ) : Prop :=
  (∃ x ∈ p.trace w.answer a, x.call.IsSpecWrite) →
    ∃ x ∈ p.trace w.answer a, x.call.IsSpecWrite ∧ ¬x.call.Failed x.answer

theorem Lasts.of_bind {β : Type} {p : Program α} {f : α → Program β} {a : σ} (h : Lasts w (p >>= f) a)
    (hp : ∀ x ∈ p.trace w.answer a, ¬x.call.IsSpecWrite) : Lasts w (f (w.result p a)) (w.after p a) := by
  rintro ⟨x, hx, hwrite⟩
  simp only [Lasts, Program.trace_bind, List.mem_append] at h
  obtain ⟨y, hy, hwrite', hok⟩ := h ⟨x, .inr hx, hwrite⟩
  rcases hy with hy | hy
  · exact absurd hwrite' (hp y hy)
  · exact ⟨y, hy, hwrite', hok⟩

theorem exists_write_of_new {d existing : Document} {a : σ} (hhas : Has (w.state a) existing)
    (hnew : ¬existing.same d = true) (hreads : w.FailsOnly IsWrite (observedConfigAttempt d) a) :
    ∃ x ∈ (observedConfigAttempt d).trace w.answer a, x.call.IsSpecWrite := by
  have htrial := w.trial_observedConfigAttempt d a
  unfold Collaborators.FailsOnly at hreads
  unfold Has at hhas
  generalize (observedConfigAttempt d).trace w.answer a = l at hreads htrial ⊢
  generalize w.after (observedConfigAttempt d) a = b at htrial
  generalize w.result (observedConfigAttempt d) a = x at htrial
  cases htrial with
  | unread => exact absurd (hreads _ (List.mem_singleton_self _) trivial) not_isWrite_getOperator
  | unreadable hasked hfound =>
    obtain ⟨rfl, -⟩ := w.eq_of_read hasked
    cases hfound.symm.trans hhas
  | idle hasked hfound hsame =>
    obtain ⟨rfl, -⟩ := w.eq_of_read hasked
    obtain rfl := Except.ok.inj (hfound.symm.trans hhas)
    exact absurd hsame hnew
  | wrote | refused => exact ⟨_, List.mem_of_getLast? rfl, trivial⟩

/-- There is an attempt to write a document that is not there yet. -/
theorem exists_attempt {d existing : Document} {a : σ} (hhas : Has (w.state a) existing)
    (hnew : ¬existing.same d = true) (hreads : w.FailsOnly IsWrite (store d) a) :
    ∃ x ∈ (store d).trace w.answer a, x.call.IsSpecWrite := by
  simp only [store, updateObservedConfig, Attempt.retries, Attempt.repeated, Collaborators.failsOnly_bind] at hreads
  obtain ⟨x, hx, hwrite⟩ := exists_write_of_new w hhas hnew hreads.1.1
  have hupdate : x ∈ (updateObservedConfig d).trace w.answer a := by
    simp only [updateObservedConfig, Attempt.retries, Attempt.repeated, Program.trace_bind]
    exact List.mem_append_left _ hx
  refine ⟨x, ?_, hwrite⟩
  rw [store, Program.trace_bind]
  exact List.mem_append_left _ hupdate

theorem has_of_written {existing : Document} {seen : Observation} {a : σ} {x : Step σ}
    (hx : x ∈ (renewWith existing seen).trace w.answer a) (hwrite : x.call.IsSpecWrite)
    (hok : ¬x.call.Failed x.answer) : Has (w.state (w.after (renewWith existing seen) a)) seen.config := by
  have huses := uses_renewWith existing seen
  obtain ⟨hanswer, hafter⟩ := Program.step_of_mem_trace w.answer hx
  have hstored : Has (w.state x.after) seen.config := by
    obtain ⟨version, spec, hcall, hspec⟩ := (huses.mem_trace w.answer hx).of_isSpecWrite hwrite
    rw [hanswer] at hok
    rw [hafter]
    rw [hcall] at hok ⊢
    exact state_stored w hspec hok
  exact huses.run_of_mem w.answer (P := fun b => Has (w.state b) seen.config)
    (fun c b hc hb => has_of_stores w hc b hb) hx hstored

theorem renewWith_stores {existing : Document} {seen : Observation} {a : σ}
    (hhas : Has (w.state a) existing) (hreads : w.FailsOnly IsWrite (renewWith existing seen) a)
    (hlasts : Lasts w (renewWith existing seen) a) :
    Has (w.state (w.after (renewWith existing seen) a)) seen.config ∨
      seen.config.same existing = true ∧ Has (w.state (w.after (renewWith existing seen) a)) existing := by
  by_cases hwritten : ∃ x ∈ (renewWith existing seen).trace w.answer a, x.call.IsSpecWrite
  · left
    obtain ⟨x, hx, hwrite, hok⟩ := hlasts hwritten
    exact has_of_written w hx hwrite hok
  · right
    obtain ⟨hkept, -⟩ := spec_of_unwritten w ((uses_renewWith existing seen).mono fun _ => Stores.tends)
      fun x hx hwrite => hwritten ⟨x, hx, hwrite⟩
    refine ⟨?_, by unfold Has; rwa [hkept]⟩
    by_contra hnew
    apply hwritten
    -- the new document would have been written
    simp only [renewWith, Collaborators.failsOnly_bind] at hreads
    obtain ⟨-, hstore, -⟩ := hreads
    rw [storeIfNew, if_neg hnew] at hstore
    have hhas' : Has (w.state (w.after (publishAll seen.events) a)) existing := by
      simpa using hhas
    rw [Document.same_comm] at hnew
    obtain ⟨x, hx, hwrite⟩ := exists_attempt w hhas' hnew hstore
    refine ⟨x, ?_, hwrite⟩
    rw [Document.same_comm] at hnew
    simp only [renewWith, Program.trace_bind, storeIfNew, if_neg hnew]
    exact List.mem_append_right _ (List.mem_append_left _ hx)

variable {a : σ}

/-- Nothing is written as long as the resource cannot be read, is not managed or has no document. -/
theorem state_cycle_of_idle (h : ∀ existing, (w.state a).operator.spec.managementState = .managed →
    ¬Has (w.state a) existing) :
    w.state (w.after (cycle (builtInOver sources) s order) a) = w.state a := by
  have hstate : w.state (w.after (Program.ask .getOperator) a) = w.state a :=
    w.state_reading (c := .getOperator) trivial a
  simp only [cycle_eq, Collaborators.after_bind]
  cases hx : w.result (Program.ask .getOperator) a with
  | error e => exact hstate
  | ok current =>
    obtain rfl := w.eq_of_getOperator hx
    dsimp only
    by_cases hmanaged : (w.state a).operator.spec.managementState = .managed
    · rw [if_neg (not_not.2 hmanaged)]
      cases hread : Document.ofJson (w.state a).operator.spec.observedConfig with
      | error e => exact hstate
      | ok existing => exact absurd hread (h existing hmanaged)
    · rw [if_pos hmanaged]
      exact hstate

@[simp] theorem view_cycle (observers : List Observer) (settings : Settings) (order : List Nat) (a : σ) :
    (w.state (w.after (cycle observers settings order) a)).view = (w.state a).view :=
  (uses_cycle observers settings order).run_keeps w.answer (fun b => (w.state b).view)
    (fun _ b hc => view_of_tends w hc.1 b) a

section Managed
variable (hmanaged : (w.state a).operator.spec.managementState = .managed) (hhas : Has (w.state a) existing)
  (hreads : w.FailsOnly IsWrite (cycle (builtInOver sources) s order) a)
  (hlasts : Lasts w (cycle (builtInOver sources) s order) a)

include hmanaged hhas hreads hlasts

/-- A cycle that can read and write stores the document that is seen, unless it is there already. -/
theorem cycle_stores :
    let seen := (observeIn (builtInOver sources) order ⟨(w.state a).view, s⟩ existing).config
    Has (w.state (w.after (cycle (builtInOver sources) s order) a)) seen ∨
      seen.same existing = true ∧ Has (w.state (w.after (cycle (builtInOver sources) s order) a)) existing := by
  rw [cycle_eq] at hreads hlasts ⊢
  rw [Collaborators.failsOnly_bind] at hreads
  rw [Collaborators.after_bind]
  obtain ⟨current, hx⟩ := w.exists_read_of_failsOnly not_isWrite_getOperator hreads.1
  obtain rfl := w.eq_of_getOperator hx
  have hstate : w.state (w.after (Program.ask .getOperator) a) = w.state a :=
    w.state_reading (c := .getOperator) trivial a
  have hread : Document.ofJson (w.state a).operator.spec.observedConfig = .ok existing := hhas
  have hrest := hreads.2
  have hlasts' := hlasts.of_bind w fun x hx => by
    obtain rfl := List.mem_singleton.1 hx
    exact id
  rw [hx] at hrest hlasts' ⊢
  simp only [hread, hmanaged, ne_eq, not_true_eq_false, if_false, renew_eq] at hrest hlasts' ⊢
  rw [← hstate] at hhas ⊢
  generalize w.after (Program.ask .getOperator) a = b at hrest hlasts' hhas ⊢
  have hlasts'' := hlasts'.of_bind w fun x hx => by
    obtain rfl := List.mem_singleton.1 hx
    exact id
  simp only [Collaborators.failsOnly_bind, Collaborators.after_bind, w.result_view] at hrest hlasts'' ⊢
  have hhas' : Has (w.state (w.after view b)) existing := by simpa using hhas
  exact renewWith_stores w hhas' hrest.2 hlasts''

/-- A cycle that can read and write leaves a stable document behind. -/
theorem cycle_leaves_stable (horder : order.Perm (List.range 5)) :
    ∃ d, Has (w.state (w.after (cycle (builtInOver sources) s order) a)) d ∧
      Stable sources ⟨(w.state a).view, s⟩ d := by
  rcases cycle_stores w hmanaged hhas hreads hlasts with hnew | ⟨hsame, hold⟩
  · exact ⟨_, hnew, stable_observeIn sources _ existing horder⟩
  · exact ⟨existing, hold, stable_of_same horder hsame⟩

end Managed

theorem silent_renewWith {facts : Facts} (h : Stable sources facts existing) (horder : order.Perm (List.range 5)) :
    (renewWith existing (observeIn (builtInOver sources) order facts existing)).Uses Silent := by
  have hsame := h order horder
  have hevents := h.warns horder
  refine .bind ?_ fun _ => ?_
  · apply Program.uses_publishAll
    exact fun e he => ⟨id, fun e' he' => Call.publish.inj he' ▸ hevents e he⟩
  · simp only [storeIfNew, if_pos hsame]
    exact .bind (.pure _) fun _ => (uses_conclude _).mono fun _ => silent_updatesStatus

/-- A cycle that finds a stable document neither writes it nor tells that it has. -/
theorem cycle_silent (horder : order.Perm (List.range 5))
    (h : ∀ d, (w.state a).operator.spec.managementState = .managed → Has (w.state a) d →
      Stable sources ⟨(w.state a).view, s⟩ d) :
    ∀ x ∈ (cycle (builtInOver sources) s order).trace w.answer a, Silent x.call := by
  have hasks : Silent .getOperator := ⟨id, nofun⟩
  have hlooks : Silent .view := ⟨id, nofun⟩
  intro x hx
  simp only [cycle_eq, Program.trace_bind, List.mem_append] at hx
  rcases hx with hx | hx
  · obtain rfl := List.mem_singleton.1 hx
    exact hasks
  have hstate : w.state (w.after (Program.ask .getOperator) a) = w.state a :=
    w.state_reading (c := .getOperator) trivial a
  change x ∈ Program.trace w.answer _ (w.after (Program.ask .getOperator) a) at hx
  generalize w.after (Program.ask .getOperator) a = b at hstate hx
  cases hgot : ((Program.ask .getOperator).run w.answer a).1 with
  | error e => simp [hgot] at hx
  | ok current =>
    obtain rfl := w.eq_of_getOperator hgot
    by_cases hmanaged : (w.state a).operator.spec.managementState = .managed
    · cases hread : Document.ofJson (w.state a).operator.spec.observedConfig with
      | error e => simp [hgot, hread, hmanaged] at hx
      | ok existing =>
        have hstable := h existing hmanaged hread
        simp only [hgot, hread, hmanaged, ne_eq, not_true_eq_false, if_false, renew_eq, Program.trace_bind,
          List.mem_append] at hx
        rcases hx with hx | hx
        · obtain rfl := List.mem_singleton.1 hx
          exact hlooks
        have hrun : (view.run w.answer b).1 = (w.state a).view := (w.result_view b).trans (by rw [hstate])
        rw [hrun] at hx
        exact (silent_renewWith hstable horder).mem_trace w.answer hx
    · simp [hgot, hmanaged] at hx

end Observer

/-- Two cycles of the observers, one after the other with nothing in between. The first one can read, and what
it writes of the spec is stored in the end. -/
structure Sequel {s : Settings} {σ : Type} (w : Recorders s σ) where
  sources : Facts → List DeployedSource
  start : σ
  first : List Nat
  second : List Nat
  first_perm : first.Perm (List.range 5)
  second_perm : second.Perm (List.range 5)
  reads : w.FailsOnly Observer.IsWrite (Observer.cycle (Observer.builtInOver sources) s first) start
  lasts : Observer.Lasts w (Observer.cycle (Observer.builtInOver sources) s first) start

namespace Sequel

open Observer

variable {s : Settings} {σ : Type} {w : Recorders s σ} (run : Sequel w)

def middle : σ := w.after (cycle (builtInOver run.sources) s run.first) run.start

theorem stable_middle {d : Document}
    (hmanaged : (w.state run.middle).operator.spec.managementState = .managed)
    (hhas : Has (w.state run.middle) d) : Stable run.sources ⟨(w.state run.middle).view, s⟩ d := by
  by_cases h : ∃ existing, (w.state run.start).operator.spec.managementState = .managed ∧
      Has (w.state run.start) existing
  · obtain ⟨existing, hstarted, hstart⟩ := h
    obtain ⟨e, he, hstable⟩ := cycle_leaves_stable w hstarted hstart run.reads run.lasts run.first_perm
    obtain rfl : e = d := Except.ok.inj (he.symm.trans hhas)
    unfold middle
    rwa [view_cycle]
  · have hidle : w.state run.middle = w.state run.start :=
      state_cycle_of_idle w fun existing hstarted hstart => h ⟨existing, hstarted, hstart⟩
    rw [hidle] at hmanaged hhas
    exact absurd ⟨d, hmanaged, hhas⟩ h

theorem silent : ∀ x ∈ (cycle (builtInOver run.sources) s run.second).trace w.answer run.middle,
    Silent x.call :=
  cycle_silent w run.second_perm fun _ => run.stable_middle

/-- What the observers have seen of a document they see in it again, in whatever order, and have no change to
tell of. Of two cycles in a row the second one does not write the document and does not tell that it has. -/
theorem second_look_changes_nothing :
    (∀ sources facts existing (order order' : List Nat), order.Perm (List.range 5) →
      order'.Perm (List.range 5) →
        (observeIn (builtInOver sources) order' facts
            (observeIn (builtInOver sources) order facts existing).config).config =
          (observeIn (builtInOver sources) order facts existing).config ∧
        ∀ e ∈ (observeIn (builtInOver sources) order' facts
            (observeIn (builtInOver sources) order facts existing).config).events, e.kind = .warning) ∧
    ∀ (s : Settings) (σ : Type) (w : Recorders s σ) (run : Sequel w),
      ∀ x ∈ (cycle (builtInOver run.sources) s run.second).trace w.answer run.middle,
        ¬x.call.IsSpecWrite ∧ ∀ e, x.call = .publish e → e.reason ≠ "ObservedConfigChanged" := by
  constructor
  · intro sources facts existing order order' horder horder'
    refine ⟨config_observeIn_again sources facts existing horder horder', fun e he => ?_⟩
    exact ((stable_observeIn sources facts existing horder).warns horder' e he).1
  · intro s σ w run x hx
    obtain ⟨hunwritten, hwarns⟩ := run.silent x hx
    exact ⟨hunwritten, fun e he => (hwarns e he).2⟩

open Simulation

/-- A cluster with an ingress domain, of which the operator resource knows an older one. -/
def moved : Steady {} :=
  ⟨{ Cluster.new {} default with
      operator :=
        { metadata := { name := some "cluster", resourceVersion := some "1", generation := some 1 }
          spec := { observedConfig := (Document.set ∅ subdomain (.str "old.example.com")).toJson } }
      view :=
        { configMaps := Cache.ofObjects
            [{ metadata := { name := some "ingress-config", space := some "openshift-config" }
               data := some (Dict.ofList [("domain", "apps.example.com")]) }] } }, rfl, rfl⟩

def movedTwice : Sequel (Steady.recorders {}) where
  sources _ := []
  start := moved
  first := Repetition.twoOrders.first
  second := Repetition.twoOrders.second
  first_perm := Repetition.twoOrders.first_perm
  second_perm := Repetition.twoOrders.second_perm
  reads := by decide +kernel
  lasts := fun _ => by decide +kernel

theorem domain_is_written_once :
    (∃ x ∈ (cycle (builtInOver fun _ => []) {} movedTwice.first).trace (Steady.recorders {}).answer moved,
      x.call.IsSpecWrite) ∧
    (∀ x ∈ (cycle (builtInOver fun _ => []) {} movedTwice.second).trace (Steady.recorders {}).answer
      movedTwice.middle, ¬x.call.IsSpecWrite) ∧
    ∀ e ∈ (observeIn (builtInOver fun _ => []) [2, 0, 1, 3, 4] twoFaults
      (observeIn (builtInOver fun _ => []) [0, 1, 2, 3, 4] twoFaults known).config).events, e.kind = .warning :=
  ⟨by decide +kernel, fun x hx => (second_look_changes_nothing.2 {} _ _ movedTwice x hx).1,
    (second_look_changes_nothing.1 (fun _ => []) twoFaults known [0, 1, 2, 3, 4] [2, 0, 1, 3, 4]
      (by decide) (by decide)).2⟩

end Sequel

end RolloutControl
