import RolloutControl.Observe.Cycle
import RolloutControl.Proofs.Effect.Update
import RolloutControl.Proofs.Observe.Order
import RolloutControl.Proofs.Simulation.Steady
/-! Two cycles in a row, in two orders. What the second one sees is what the first one has seen, but the
errors are put into words in the order in which the observers are asked. -/

namespace RolloutControl

theorem joinLines_append_left {l m : List String} (x : List String) (h : joinLines l = joinLines m)
    (hnil : l = [] ↔ m = []) : joinLines (x ++ l) = joinLines (x ++ m) := by
  by_cases hl : l = []
  · rw [hl, hnil.1 hl]
  by_cases hx : x = []
  · simpa [hx] using h
  unfold joinLines at h ⊢
  rw [String.intercalate_append_of_ne_nil hx hl, String.intercalate_append_of_ne_nil hx (mt hnil.2 hl), h]

theorem joinLines_append_right {l m : List String} (x : List String) (h : joinLines l = joinLines m)
    (hnil : l = [] ↔ m = []) : joinLines (l ++ x) = joinLines (m ++ x) := by
  by_cases hl : l = []
  · rw [hl, hnil.1 hl]
  by_cases hx : x = []
  · simpa [hx] using h
  unfold joinLines at h ⊢
  rw [String.intercalate_append_of_ne_nil hl hx, String.intercalate_append_of_ne_nil (mt hnil.2 hl) hx, h]

theorem joinLines_of_append_right {l m x : List String} (h : joinLines (l ++ x) = joinLines (m ++ x))
    (hnil : l = [] ↔ m = []) : joinLines l = joinLines m := by
  by_cases hl : l = []
  · rw [hl, hnil.1 hl]
  by_cases hx : x = []
  · simpa [hx] using h
  unfold joinLines at h ⊢
  rw [String.intercalate_append_of_ne_nil hl hx, String.intercalate_append_of_ne_nil (mt hnil.2 hl) hx,
    String.append_assoc, String.append_assoc, String.append_left_inj] at h
  exact h

/-- Texts that are put together in two orders are the same if any two pieces can change places. -/
theorem joinLines_flatMap_perm {ι : Type} {f : ι → List String} {l m : List ι} (h : l.Perm m)
    (hswap : ∀ i ∈ l, ∀ j ∈ l, joinLines (f i ++ f j) = joinLines (f j ++ f i)) :
    joinLines (l.flatMap f) = joinLines (m.flatMap f) := by
  induction h with
  | nil => rfl
  | @cons i l m h ih =>
    have htail := ih fun a ha b hb => hswap a (List.mem_cons_of_mem i ha) b (List.mem_cons_of_mem i hb)
    have hnil : l.flatMap f = [] ↔ m.flatMap f = [] := by
      rw [← List.length_eq_zero_iff, ← List.length_eq_zero_iff, (h.flatMap_right f).length_eq]
    simpa only [List.flatMap_cons] using joinLines_append_left (f i) htail hnil
  | swap i j l =>
    have hij := hswap j (by simp) i (by simp)
    have hnil : f j ++ f i = [] ↔ f i ++ f j = [] := by simp [and_comm]
    simpa only [List.flatMap_cons, List.append_assoc] using
      joinLines_append_right (l.flatMap f) hij hnil
  | trans h _ ih ih' =>
    have hlater := ih' fun a ha b hb => hswap a (h.mem_iff.2 ha) b (h.mem_iff.2 hb)
    exact (ih hswap).trans hlater

theorem joinLines_swap_of_perm {ι : Type} [DecidableEq ι] {f : ι → List String} {l : List ι}
    (h : ∀ m m' : List ι, m.Perm l → m'.Perm l → joinLines (m.flatMap f) = joinLines (m'.flatMap f))
    {i j : ι} (hi : i ∈ l) (hj : j ∈ l) : joinLines (f i ++ f j) = joinLines (f j ++ f i) := by
  by_cases hij : i = j
  · rw [hij]
  have hj' : j ∈ l.erase i := (List.mem_erase_of_ne (Ne.symm hij)).2 hj
  have hperm : l.Perm (i :: j :: (l.erase i).erase j) :=
    (List.perm_cons_erase hi).trans ((List.perm_cons_erase hj').cons i)
  have htexts := h _ _ hperm.symm ((List.Perm.swap i j _).trans hperm.symm)
  simp only [List.flatMap_cons, ← List.append_assoc] at htexts
  exact joinLines_of_append_right htexts (by simp [and_comm])

namespace Observer

@[simp] theorem conditionOf_type (l : List String) : (conditionOf l).type = errorCondition := by
  cases l <;> rfl

@[simp] theorem conditionOf_message (l : List String) : (conditionOf l).message = joinLines l := by
  cases l with
  | nil => exact String.intercalate_nil.symm
  | cons m r => rfl

theorem conditionOf_congr {l m : List String} (h : l.length = m.length) :
    (conditionOf l).verdict = (conditionOf m).verdict ∧ (conditionOf l).reason = (conditionOf m).reason := by
  cases l with
  | nil =>
    obtain rfl := List.length_eq_zero_iff.1 h.symm
    exact ⟨rfl, rfl⟩
  | cons x l =>
    obtain ⟨y, m, rfl⟩ := List.exists_cons_of_length_eq_add_one h.symm
    exact ⟨rfl, rfl⟩

/-- What an observer reports. -/
def complaints (o : Observer) (facts : Facts) : List String := (o.observe facts ∅).errors.map (·.message)

def messages (sources : Facts → List DeployedSource) (facts : Facts) (order : List Nat) : List String :=
  (observeIn (builtInOver sources) order facts ∅).errors.map (·.message)

/-- What one of them reports. -/
def reported (sources : Facts → List DeployedSource) (facts : Facts) (i : Nat) : List String :=
  ((builtInOver sources)[i]?.map (complaints · facts)).getD []

theorem messages_eq_flatMap (sources : Facts → List DeployedSource) (facts : Facts) (order : List Nat) :
    messages sources facts order = order.flatMap (reported sources facts) := by
  rw [messages, errors_observeIn, asked]
  induction order with
  | nil => rfl
  | cons i r ih =>
    rw [List.flatMap_cons, ← ih, List.filterMap_cons, reported]
    cases (builtInOver sources)[i]? <;> simp [complaints]

theorem messages_perm (sources : Facts → List DeployedSource) (facts : Facts) {order order' : List Nat}
    (h : order.Perm order') : (messages sources facts order).Perm (messages sources facts order') :=
  (errors_observeIn_perm (builtInOver sources) facts ∅ h).map _

/-- All orders give one text exactly if any two observers can change places. -/
theorem text_eq_iff_swap (sources : Facts → List DeployedSource) (facts : Facts) {first : List Nat}
    (hfirst : first.Perm (List.range 5)) :
    (∀ order : List Nat, order.Perm (List.range 5) →
        joinLines (messages sources facts order) = joinLines (messages sources facts first)) ↔
      ∀ a ∈ builtInOver sources, ∀ b ∈ builtInOver sources,
        joinLines (a.complaints facts ++ b.complaints facts) =
          joinLines (b.complaints facts ++ a.complaints facts) := by
  simp only [messages_eq_flatMap]
  constructor
  · intro h a ha b hb
    obtain ⟨i, hi, rfl⟩ := List.mem_iff_getElem.1 ha
    obtain ⟨j, hj, rfl⟩ := List.mem_iff_getElem.1 hb
    have hswap := joinLines_swap_of_perm (fun m m' hm hm' => (h m hm).trans (h m' hm').symm)
      (List.mem_range.2 hi) (List.mem_range.2 hj)
    simpa only [reported, List.getElem?_eq_getElem hi, List.getElem?_eq_getElem hj, Option.map_some,
      Option.getD_some] using hswap
  · intro h order horder
    refine joinLines_flatMap_perm (horder.trans hfirst.symm) fun i hi j hj => ?_
    have hi : i < (builtInOver sources).length := List.mem_range.1 (horder.mem_iff.1 hi)
    have hj : j < (builtInOver sources).length := List.mem_range.1 (horder.mem_iff.1 hj)
    simp only [reported, List.getElem?_eq_getElem hi, List.getElem?_eq_getElem hj, Option.map_some,
      Option.getD_some]
    exact h _ (List.getElem_mem hi) _ (List.getElem_mem hj)

theorem errors_observeIn_builtIn (sources : Facts → List DeployedSource) (facts : Facts) (order : List Nat)
    (existing : Document) : (observeIn (builtInOver sources) order facts existing).errors =
      (observeIn (builtInOver sources) order facts ∅).errors := by
  rw [errors_observeIn, errors_observeIn]
  refine List.flatMap_congr fun o ho => ?_
  exact (builtIn_outcome (mem_of_mem_asked ho) facts).errors_eq existing ∅

variable {s : Settings} {σ : Type} (w : Recorders s σ)

/-- Nothing but the observed config has changed, and it can be read. -/
structure Refreshed (a b : ClusterState) : Prop where
  view : b.view = a.view
  managementState : b.operator.spec.managementState = a.operator.spec.managementState
  status : b.operator.statusOrEmpty = a.operator.statusOrEmpty
  readable : ∃ d, Document.ofJson b.operator.spec.observedConfig = .ok d

theorem Refreshed.self {a : ClusterState} {d : Document}
    (h : Document.ofJson a.operator.spec.observedConfig = .ok d) : Refreshed a a :=
  ⟨rfl, rfl, rfl, d, h⟩

theorem refreshed_of_stored {d : Document} {version : String} {a : σ} {r : OperatorResource}
    (h : (w.answer (.writeSpec version
      { (w.state a).operator.spec with observedConfig := d.toJson }) a).1 = .ok r) :
    Refreshed (w.state a) (w.state (w.answer (.writeSpec version
      { (w.state a).operator.spec with observedConfig := d.toJson }) a).2) := by
  have hallowed := w.allowed (.writeSpec version
    { (w.state a).operator.spec with observedConfig := d.toJson }) a
  simp only [Call.Allows, h] at hallowed
  obtain ⟨hview, rfl, hstatus⟩ := hallowed
  have hspec := w.spec_written _ _ a _ h
  exact ⟨hview, by rw [hspec], by rw [OperatorResource.statusOrEmpty, hstatus]; rfl, d,
    by rw [hspec]; simp [Document.ofJson]⟩

theorem updateObservedConfig_of_succeeds {d existing : Document} {a : σ}
    (hread : Document.ofJson (w.state a).operator.spec.observedConfig = .ok existing)
    (h : w.Succeeds (updateObservedConfig d) a) :
    (∃ changed, w.result (updateObservedConfig d) a = .ok (existing, changed)) ∧
      Refreshed (w.state a) (w.state (w.after (updateObservedConfig d) a)) := by
  simp only [updateObservedConfig, Attempt.retries, Attempt.repeated, Collaborators.succeeds_bind,
    Collaborators.after_bind, Collaborators.result_bind] at h ⊢
  have htrial := w.trial_observedConfigAttempt d a
  have hsucceeds := h.1
  unfold Collaborators.Succeeds at hsucceeds
  clear h
  generalize (observedConfigAttempt d).trace w.answer a = l at hsucceeds htrial
  generalize w.after (observedConfigAttempt d) a = b at htrial ⊢
  generalize w.result (observedConfigAttempt d) a = x at htrial ⊢
  cases htrial with
  | unread => exact absurd trivial (hsucceeds _ (List.mem_singleton_self _))
  | unreadable hasked hfound =>
    obtain ⟨rfl, -⟩ := w.eq_of_read hasked
    cases hfound.symm.trans hread
  | idle hasked hfound =>
    obtain ⟨rfl, hkept⟩ := w.eq_of_read hasked
    obtain rfl := Except.ok.inj (hfound.symm.trans hread)
    exact ⟨⟨false, rfl⟩, hkept.symm ▸ Refreshed.self hread⟩
  | wrote hasked hfound _ hstored =>
    obtain ⟨rfl, hkept⟩ := w.eq_of_read hasked
    obtain rfl := Except.ok.inj (hfound.symm.trans hread)
    rw [← hkept] at hstored ⊢
    have hrefreshed := refreshed_of_stored w (congrArg Prod.fst hstored)
    rw [hstored] at hrefreshed
    exact ⟨⟨true, rfl⟩, hrefreshed⟩
  | refused => exact absurd trivial (hsucceeds _ (List.mem_of_getLast? rfl))

theorem store_of_succeeds {d existing : Document} {a : σ}
    (hread : Document.ofJson (w.state a).operator.spec.observedConfig = .ok existing)
    (h : w.Succeeds (store d) a) :
    w.result (store d) a = [] ∧ Refreshed (w.state a) (w.state (w.after (store d) a)) := by
  simp only [store, Collaborators.succeeds_bind, Collaborators.after_bind, Collaborators.result_bind] at h ⊢
  obtain ⟨⟨changed, hx⟩, hrefreshed⟩ := updateObservedConfig_of_succeeds w hread h.1
  rw [hx]
  cases changed with
  | false => exact ⟨rfl, hrefreshed⟩
  | true => exact ⟨rfl, by simpa using hrefreshed⟩

theorem uses_store_of {kind : Call → Prop} {d : Document} (hread : kind .getOperator)
    (hsleep : kind (.sleep Attempt.pause)) (hpublish : ∀ e, kind (.publish e))
    (hwrite : ∀ version spec, spec.observedConfig = d.toJson → kind (.writeSpec version spec)) :
    (store d).Uses kind := by
  refine .bind (uses_updateObservedConfig hread hsleep hwrite) fun x => ?_
  rcases x with e | ⟨previous, _ | _⟩
  · exact .bind (.ask (hpublish _)) fun _ => .pure _
  · exact .pure _
  · exact .bind (.ask (hpublish _)) fun _ => .pure _

theorem not_writesStatus_store (d : Document) (a : σ) : ¬w.WritesStatus (store d) a :=
  w.not_writesStatus (uses_store_of id id (fun _ => id) fun _ _ _ => id) a

def record (l : List String) (now : Instant) (status : OperatorStatus) : OperatorStatus :=
  { status with conditions := Condition.set now (conditionOf l) status.conditions }

def conclude (l : List String) : Program (Except Error Action) := do
  match ← updateStatus (record l) with
  | .error e => pure (.error e)
  | .ok _ => pure (if l.isEmpty then .ok .awaitChange else .error (.several l))

def storeIfNew (existing observed : Document) : Program (List Error) :=
  if observed.same existing then pure [] else store observed

/-- What a cycle does once it knows the document that is stored. -/
def renew (observers : List Observer) (settings : Settings) (order : List Nat) (existing : Document) :
    Program (Except Error Action) := do
  let v ← view
  let seen := observeIn observers order ⟨v, settings⟩ existing
  publishAll seen.events
  let failed ← storeIfNew existing seen.config
  conclude ((seen.errors ++ failed).map (·.message))

theorem cycle_eq (observers : List Observer) (settings : Settings) (order : List Nat) :
    cycle observers settings order = Program.ask .getOperator >>= fun
      | .error e => pure (.error e)
      | .ok operator =>
        if operator.spec.managementState ≠ .managed then pure (.ok .awaitChange)
        else
          match Document.ofJson operator.spec.observedConfig with
          | .error e => pure (.error e)
          | .ok existing => renew observers settings order existing := by
  refine congrArg (Program.ask .getOperator >>= ·) (funext fun x => ?_)
  cases x with
  | error e => rfl
  | ok operator =>
    dsimp only
    split
    · rfl
    · cases Document.ofJson operator.spec.observedConfig with
      | error e => rfl
      | ok existing =>
        refine congrArg (view >>= ·) (funext fun v => congrArg (publishAll _ >>= ·) (funext fun _ => ?_))
        unfold storeIfNew
        split <;> rfl

/-- These messages are in the condition afterwards, the document can be read, and nothing else has changed. -/
structure Reported (l : List String) (a b : ClusterState) : Prop where
  view : b.view = a.view
  managementState : b.operator.spec.managementState = a.operator.spec.managementState
  readable : ∃ d, Document.ofJson b.operator.spec.observedConfig = .ok d
  status : ∃ now, b.operator.statusOrEmpty = record l now a.operator.statusOrEmpty

theorem conclude_of_succeeds {l : List String} {a : σ} {d : Document}
    (hread : Document.ofJson (w.state a).operator.spec.observedConfig = .ok d)
    (h : w.Succeeds (conclude l) a) :
    Reported l (w.state a) (w.state (w.after (conclude l) a)) ∧
      (w.WritesStatus (conclude l) a ↔
        (w.state (w.after (conclude l) a)).operator.statusOrEmpty ≠ (w.state a).operator.statusOrEmpty) := by
  simp only [conclude, Collaborators.succeeds_bind, Collaborators.after_bind,
    Collaborators.writesStatus_bind] at h ⊢
  obtain ⟨hview, hspec, -, -⟩ :=
    w.updateStatus_frame (record l) (Q := fun _ => True) (fun _ _ _ => trivial) a trivial
  obtain ⟨hstatus, hwrites⟩ := w.updateStatus_of_succeeds h.1
  have hmanaged := congrArg OperatorSpec.managementState hspec
  have hread' := (congrArg (fun spec => Document.ofJson spec.observedConfig) hspec).trans hread
  cases w.result (updateStatus (record l)) a <;>
    exact ⟨⟨hview, hmanaged, ⟨d, hread'⟩, hstatus⟩, by simpa using hwrites⟩

theorem storeIfNew_of_succeeds {observed existing : Document} {a : σ}
    (hread : Document.ofJson (w.state a).operator.spec.observedConfig = .ok existing)
    (h : w.Succeeds (storeIfNew existing observed) a) :
    w.result (storeIfNew existing observed) a = [] ∧
      Refreshed (w.state a) (w.state (w.after (storeIfNew existing observed) a)) ∧
      ¬w.WritesStatus (storeIfNew existing observed) a := by
  unfold storeIfNew at h ⊢
  split
  · exact ⟨rfl, .self hread, w.writesStatus_pure _ a⟩
  · rw [if_neg ‹_›] at h
    obtain ⟨hresult, hrefreshed⟩ := store_of_succeeds w hread h
    exact ⟨hresult, hrefreshed, not_writesStatus_store w observed a⟩

theorem renew_of_succeeds {sources : Facts → List DeployedSource} {order : List Nat} {existing : Document}
    {a : σ} (hread : Document.ofJson (w.state a).operator.spec.observedConfig = .ok existing)
    (h : w.Succeeds (renew (builtInOver sources) s order existing) a) :
    Reported (messages sources ⟨(w.state a).view, s⟩ order) (w.state a)
        (w.state (w.after (renew (builtInOver sources) s order existing) a)) ∧
      (w.WritesStatus (renew (builtInOver sources) s order existing) a ↔
        (w.state (w.after (renew (builtInOver sources) s order existing) a)).operator.statusOrEmpty ≠
          (w.state a).operator.statusOrEmpty) := by
  have hlooks : ¬w.WritesStatus view a := (w.writesStatus_ask .view a).1
  have htells (l : List Event) (b : σ) : ¬w.WritesStatus (publishAll l) b :=
    w.not_writesStatus ((Collaborators.reading_publishAll l).mono fun _ => Collaborators.Reading.not_isStatusWrite) b
  simp only [renew, Collaborators.succeeds_bind, Collaborators.after_bind, Collaborators.writesStatus_bind,
    w.result_view, hlooks, htells, false_or] at h ⊢
  obtain ⟨-, -, hstores, hconcludes⟩ := h
  generalize hb : w.after (publishAll _) (w.after view a) = b at hstores hconcludes ⊢
  have hstate : w.state b = w.state a := by simp [← hb]
  rw [← hstate] at hread
  obtain ⟨hfailed, ⟨hview, hmanaged, hstatus, d, hnew⟩, hsilent⟩ := storeIfNew_of_succeeds w hread hstores
  have hmessages : (observeIn (builtInOver sources) order ⟨(w.state a).view, s⟩ existing).errors.map
      (·.message) = messages sources ⟨(w.state a).view, s⟩ order := by
    rw [errors_observeIn_builtIn, messages]
  simp only [hfailed, List.append_nil, hmessages, hsilent, false_or] at hconcludes ⊢
  obtain ⟨hreported, hwrites⟩ := conclude_of_succeeds w hnew hconcludes
  rw [hstate] at hview hmanaged hstatus
  refine ⟨⟨hreported.view.trans hview, hreported.managementState.trans hmanaged, hreported.readable, ?_⟩, ?_⟩
  · exact hstatus ▸ hreported.status
  · exact hstatus ▸ hwrites

theorem cycle_of_succeeds {sources : Facts → List DeployedSource} {order : List Nat} {existing : Document}
    {a : σ} (hmanaged : (w.state a).operator.spec.managementState = .managed)
    (hread : Document.ofJson (w.state a).operator.spec.observedConfig = .ok existing)
    (h : w.Succeeds (cycle (builtInOver sources) s order) a) :
    Reported (messages sources ⟨(w.state a).view, s⟩ order) (w.state a)
        (w.state (w.after (cycle (builtInOver sources) s order) a)) ∧
      (w.WritesStatus (cycle (builtInOver sources) s order) a ↔
        (w.state (w.after (cycle (builtInOver sources) s order) a)).operator.statusOrEmpty ≠
          (w.state a).operator.statusOrEmpty) := by
  have hstate : w.state (w.after (Program.ask .getOperator) a) = w.state a :=
    w.state_reading (c := .getOperator) trivial a
  have hasks : ¬w.WritesStatus (Program.ask .getOperator) a := (w.writesStatus_ask .getOperator a).1
  simp only [cycle_eq, Collaborators.succeeds_bind, Collaborators.after_bind,
    Collaborators.writesStatus_bind, hasks, false_or] at h ⊢
  obtain ⟨hgot, h⟩ := h
  obtain ⟨current, hx⟩ := w.exists_read hgot
  obtain rfl := w.eq_of_getOperator hx
  simp only [hx, hmanaged, hread, ne_eq, not_true_eq_false, if_false] at h ⊢
  rw [← hstate] at hread ⊢
  exact renew_of_succeeds w hread h

theorem cycle_of_unreadable {sources : Facts → List DeployedSource} {order : List Nat} {a : σ}
    (hread : ∀ d, Document.ofJson (w.state a).operator.spec.observedConfig ≠ .ok d) :
    w.state (w.after (cycle (builtInOver sources) s order) a) = w.state a ∧
      ¬w.WritesStatus (cycle (builtInOver sources) s order) a := by
  have hstate : w.state (w.after (Program.ask .getOperator) a) = w.state a :=
    w.state_reading (c := .getOperator) trivial a
  have hasks : ¬w.WritesStatus (Program.ask .getOperator) a := (w.writesStatus_ask .getOperator a).1
  simp only [cycle_eq, Collaborators.after_bind, Collaborators.writesStatus_bind, hasks, false_or]
  cases hx : w.result (Program.ask .getOperator) a with
  | error e => exact ⟨hstate, w.writesStatus_pure _ _⟩
  | ok current =>
    obtain rfl := w.eq_of_getOperator hx
    dsimp only
    split
    · exact ⟨hstate, w.writesStatus_pure _ _⟩
    · cases hdocument : Document.ofJson (w.state a).operator.spec.observedConfig with
      | error e => exact ⟨hstate, w.writesStatus_pure _ _⟩
      | ok d => exact absurd hdocument (hread d)

def stored? (a : ClusterState) : Option Condition :=
  Condition.find? errorCondition a.operator.statusOrEmpty.conditions

theorem Reported.stored? {l : List String} {a b : ClusterState} (h : Reported l a b) :
    ∃ c, stored? b = some c ∧ c.verdict = (conditionOf l).verdict ∧ c.reason = (conditionOf l).reason ∧
      c.message = joinLines l := by
  obtain ⟨now, hstatus⟩ := h.status
  have hfound := Condition.find?_set_self now (conditionOf l) a.operator.statusOrEmpty.conditions
  rw [conditionOf_type] at hfound
  rw [Observer.stored?, hstatus]
  exact ⟨_, hfound, rfl, rfl, conditionOf_message l⟩

theorem record_eq_self_iff {l : List String} {now : Instant} {status : OperatorStatus} {c : Condition}
    (hc : Condition.find? errorCondition status.conditions = some c)
    (hverdict : c.verdict = (conditionOf l).verdict) (hreason : c.reason = (conditionOf l).reason) :
    record l now status = status ↔ c.message = joinLines l := by
  have hstatus : record l now status = status ↔
      Condition.set now (conditionOf l) status.conditions = status.conditions := by
    cases status
    simp [record]
  rw [hstatus, Condition.set_eq_self_iff, conditionOf_type, hc, conditionOf_message]
  simp [hverdict, hreason]

end Observer

/-- Two cycles of the observers, one after the other with nothing in between, of which no call fails. -/
structure Repetition {s : Settings} {σ : Type} (w : Recorders s σ) where
  sources : Facts → List DeployedSource
  start : σ
  first : List Nat
  second : List Nat
  first_perm : first.Perm (List.range 5)
  second_perm : second.Perm (List.range 5)
  managed : (w.state start).operator.spec.managementState = .managed
  first_succeeds : w.Succeeds (Observer.cycle (Observer.builtInOver sources) s first) start
  second_succeeds : w.Succeeds (Observer.cycle (Observer.builtInOver sources) s second)
    (w.after (Observer.cycle (Observer.builtInOver sources) s first) start)

namespace Repetition

open Observer

variable {s : Settings} {σ : Type} {w : Recorders s σ} (run : Repetition w)

def middle : σ := w.after (cycle (builtInOver run.sources) s run.first) run.start

def finish : σ := w.after (cycle (builtInOver run.sources) s run.second) run.middle

def facts : Facts := ⟨(w.state run.start).view, s⟩

def Readable : Prop := ∃ d, Document.ofJson (w.state run.start).operator.spec.observedConfig = .ok d

def text (order : List Nat) : String := joinLines (messages run.sources run.facts order)

theorem messages_agree : (conditionOf (messages run.sources run.facts run.first)).verdict =
      (conditionOf (messages run.sources run.facts run.second)).verdict ∧
    (conditionOf (messages run.sources run.facts run.first)).reason =
      (conditionOf (messages run.sources run.facts run.second)).reason :=
  conditionOf_congr
    (messages_perm run.sources run.facts (run.first_perm.trans run.second_perm.symm)).length_eq

theorem stages (h : run.Readable) :
    Reported (messages run.sources run.facts run.first) (w.state run.start) (w.state run.middle) ∧
      Reported (messages run.sources run.facts run.second) (w.state run.middle) (w.state run.finish) ∧
      (w.WritesStatus (cycle (builtInOver run.sources) s run.second) run.middle ↔
        (w.state run.finish).operator.statusOrEmpty ≠ (w.state run.middle).operator.statusOrEmpty) := by
  obtain ⟨d, hread⟩ := h
  have hfirst := (cycle_of_succeeds w run.managed hread run.first_succeeds).1
  obtain ⟨d', hread'⟩ := hfirst.readable
  have hsecond := cycle_of_succeeds w (hfirst.managementState.trans run.managed) hread' run.second_succeeds
  have hfacts : (⟨(w.state run.middle).view, s⟩ : Facts) = run.facts := congrArg (Facts.mk · s) hfirst.view
  exact ⟨hfirst, hfacts ▸ hsecond.1, hsecond.2⟩

theorem writes_iff_of_readable (h : run.Readable) :
    w.WritesStatus (cycle (builtInOver run.sources) s run.second) run.middle ↔
      run.text run.first ≠ run.text run.second := by
  obtain ⟨hfirst, hsecond, hwrites⟩ := run.stages h
  obtain ⟨c, hc, hverdict, hreason, hmessage⟩ := hfirst.stored?
  obtain ⟨hverdicts, hreasons⟩ := run.messages_agree
  obtain ⟨now, hstatus⟩ := hsecond.status
  rw [hwrites, hstatus, ne_eq,
    record_eq_self_iff hc (hverdict.trans hverdicts) (hreason.trans hreasons), hmessage]
  rfl

theorem not_writes_of_unreadable (h : ¬run.Readable) :
    ¬w.WritesStatus (cycle (builtInOver run.sources) s run.second) run.middle := by
  have hread : ∀ d, Document.ofJson (w.state run.start).operator.spec.observedConfig ≠ .ok d :=
    fun d hd => h ⟨d, hd⟩
  have hstate : w.state run.middle = w.state run.start := (cycle_of_unreadable w hread).1
  exact (cycle_of_unreadable w (by rw [hstate]; exact hread)).2

/-- The two cycles store the same condition but for its message, which has the errors in the order of the
cycle, and so the second one writes the status exactly if the two texts differ. In all orders the text is
the same exactly if the errors of any two observers can change places. -/
theorem rewritten_iff_texts_differ (run : Repetition w) :
    (run.Readable → ∃ c d, stored? (w.state run.middle) = some c ∧ stored? (w.state run.finish) = some d ∧
      c.verdict = d.verdict ∧ c.reason = d.reason ∧
      c.message = run.text run.first ∧ d.message = run.text run.second) ∧
    (w.WritesStatus (cycle (builtInOver run.sources) s run.second) run.middle ↔
      run.Readable ∧ run.text run.first ≠ run.text run.second) ∧
    ((∀ order : List Nat, order.Perm (List.range 5) → run.text order = run.text run.first) ↔
      ∀ a ∈ builtInOver run.sources, ∀ b ∈ builtInOver run.sources,
        joinLines (a.complaints run.facts ++ b.complaints run.facts) =
          joinLines (b.complaints run.facts ++ a.complaints run.facts)) := by
  refine ⟨fun h => ?_, ?_, text_eq_iff_swap run.sources run.facts run.first_perm⟩
  · obtain ⟨hfirst, hsecond, -⟩ := run.stages h
    obtain ⟨c, hc, hverdict, hreason, hmessage⟩ := hfirst.stored?
    obtain ⟨d, hd, hverdict', hreason', hmessage'⟩ := hsecond.stored?
    obtain ⟨hverdicts, hreasons⟩ := run.messages_agree
    exact ⟨c, d, hc, hd, (hverdict.trans hverdicts).trans hverdict'.symm,
      (hreason.trans hreasons).trans hreason'.symm, hmessage, hmessage'⟩
  · by_cases h : run.Readable
    · rw [run.writes_iff_of_readable h]
      exact ⟨fun hne => ⟨h, hne⟩, And.right⟩
    · exact ⟨fun hw => absurd hw (run.not_writes_of_unreadable h), fun hw => absurd hw.1 h⟩

open Simulation

/-- A cluster in which the address of a member of etcd cannot be read, and there is no ingress domain. -/
def faulty : Steady {} := ⟨{ Cluster.new {} default with view := twoFaults.view }, rfl, rfl⟩

def twoOrders : Repetition (Steady.recorders {}) where
  sources facts := [.ofReplicas facts.view facts.settings.encryption]
  start := faulty
  first := [0, 1, 2, 3, 4]
  second := [2, 0, 1, 3, 4]
  first_perm := by decide
  second_perm := by decide
  managed := rfl
  first_succeeds := by decide +kernel
  second_succeeds := by decide +kernel

/-- The second cycle writes another message, although nothing else has changed. -/
theorem message_rewritten : twoOrders.text twoOrders.first ≠ twoOrders.text twoOrders.second ∧
    (Steady.recorders {}).WritesStatus (cycle builtIn {} twoOrders.second) twoOrders.middle := by
  decide +kernel

end Repetition

end RolloutControl
