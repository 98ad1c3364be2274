import Mathlib.Data.List.Nodup
import RolloutControl.Proofs.Effect.Stages
/-! Many updates of the operator resource at the same time. Every read and every write is a step of its own, the
updates take their steps in any order, and others write what they like in between. A write succeeds only on top of the
version that is stored, and leaves a version that was never stored before. Anything else may fail at any time. -/

namespace RolloutControl

/-- Whether a call may be answered like this while the resource stays as it is. -/
def Call.Leaves (r : OperatorResource) : (c : Call) → c.Answer → Prop
  | .getOperator, .ok q => q = r
  | .writeSpec _ _, .ok _ | .writeStatus _ _, .ok _ => False
  | _, _ => True

/-- Whether a call may be answered like this and put a resource in the place of the one that is stored. -/
def Call.Replaces (r q : OperatorResource) : (c : Call) → c.Answer → Prop
  | .writeSpec version spec, .ok x =>
    x = q ∧ r.metadata.resourceVersion = some version ∧ q.spec = spec ∧ q.status = r.status
  | .writeStatus version status, .ok x =>
    x = q ∧ r.metadata.resourceVersion = some version ∧ q.spec = r.spec ∧ q.status = some status
  | _, _ => False

/-- Only the change that is wanted lies between the two resources. -/
def Update.Replaces : Update → (before after : OperatorResource) → Prop
  | .status _ change, before, after =>
    (∃ now, after.status = some (change now before.statusOrEmpty)) ∧ after.spec = before.spec
  | .observedConfig d, before, after =>
    after.spec = { before.spec with observedConfig := d.toJson } ∧ after.status = before.status

/-- A write that succeeds was made on top of the version that is stored. If it was made on top of what is stored, only
the change that is wanted lies in between. -/
theorem Update.replaces_of_makes {u : Update} {p r q : OperatorResource} {c : Call} {x : c.Answer} (h : u.Makes p c)
    (hx : c.Replaces r q x) : p.version = r.version ∧ (p = r → u.Replaces r q) := by
  have hreplaces : r.metadata.resourceVersion = some p.version ∧ (p = r → u.Replaces r q) := by
    cases u with
    | status author change =>
      cases c with
      | writeStatus version new =>
        obtain ⟨rfl, now, rfl⟩ := h
        cases x with
        | error e => exact hx.elim
        | ok y =>
          refine ⟨hx.2.1, ?_⟩
          rintro rfl
          exact ⟨⟨now, hx.2.2.2⟩, hx.2.2.1⟩
      | _ => exact h.elim
    | observedConfig d =>
      cases c with
      | writeSpec version spec =>
        obtain ⟨rfl, rfl⟩ := h
        cases x with
        | error e => exact hx.elim
        | ok y =>
          refine ⟨hx.2.1, ?_⟩
          rintro rfl
          exact ⟨hx.2.2.1, hx.2.2.2⟩
      | _ => exact h.elim
  exact ⟨by simp [OperatorResource.version, hreplaces.1], hreplaces.2⟩

theorem Update.not_written_of_permits {u : Update} {stage : Stage} {c : Call} (h : u.Permits stage c) :
    ¬stage.Written := by
  cases stage with
  | unread | read => exact id
  | written => exact h.elim

theorem Update.exists_read_of_replaces {u : Update} {stage : Stage} {c : Call} {x : c.Answer} {r q : OperatorResource}
    (h : u.Permits stage c) (hx : c.Replaces r q x) : ∃ p, stage = .read p ∧ u.Makes p c := by
  have hreading : ¬Collaborators.Reading c := by
    intro hc
    cases c with
    | view | clock | getOperator | probe | publish | sleep => exact hx
    | _ => exact hc
  cases stage with
  | unread => exact absurd h hreading
  | read p => exact ⟨p, rfl, h.resolve_left hreading⟩
  | written => exact h.elim

theorem Stage.next_of_replaces {p r q : OperatorResource} {c : Call} {x : c.Answer} (hx : c.Replaces r q x) :
    (Stage.read p).next c x = .written p q := by
  cases c with
  | writeSpec version spec | writeStatus version status =>
    cases x with
    | error e => exact hx.elim
    | ok y =>
      obtain rfl : y = q := hx.1
      rfl
  | _ => exact hx.elim

/-- A write that has succeeded. Others than the updates have no number. -/
structure Write where
  writer : Option (Nat × Update)
  before : OperatorResource
  after : OperatorResource

/-- What is left of an update. -/
structure Running where
  update : Update
  rest : Program update.Result

/-- The resource, the writes that have succeeded, the last one first, and the updates that were begun. -/
structure Traffic where
  stored : OperatorResource
  writes : List Write := []
  updates : List Running := []

namespace Traffic

def history (t : Traffic) : List OperatorResource := t.stored :: t.writes.map (·.before)

def Fresh (t : Traffic) (r : OperatorResource) : Prop := ∀ q ∈ t.history, r.version ≠ q.version

instance (t : Traffic) (r : OperatorResource) : Decidable (t.Fresh r) :=
  inferInstanceAs (Decidable (∀ q ∈ t.history, r.version ≠ q.version))

def replace (t : Traffic) (writer : Option (Nat × Update)) (q : OperatorResource) : Traffic :=
  { t with stored := q, writes := ⟨writer, t.stored, q⟩ :: t.writes }

def proceed (t : Traffic) (i : Nat) (x : Running) : Traffic := { t with updates := t.updates.set i x }

inductive Step (t : Traffic) : Traffic → Prop
  | begin (u : Update) : Step t { t with updates := t.updates ++ [⟨u, u.program⟩] }
  | answer {i : Nat} {u : Update} {c : Call} {next : c.Answer → Program u.Result} {x : c.Answer}
      (hi : t.updates[i]? = some ⟨u, .call c next⟩) (hx : c.Leaves t.stored x) : Step t (t.proceed i ⟨u, next x⟩)
  | write {i : Nat} {u : Update} {c : Call} {next : c.Answer → Program u.Result} {x : c.Answer} {q : OperatorResource}
      (hi : t.updates[i]? = some ⟨u, .call c next⟩) (hx : c.Replaces t.stored q x) (hq : t.Fresh q) :
      Step t ((t.replace (some (i, u)) q).proceed i ⟨u, next x⟩)
  | foreign {q : OperatorResource} (hq : t.Fresh q) : Step t (t.replace none q)

/-- Everything that can become of a resource, while any number of updates is begun. -/
inductive Reachable (first : OperatorResource) : Traffic → Prop
  | start : Reachable first { stored := first }
  | step {t t' : Traffic} (h : Reachable first t) (hstep : Step t t') : Reachable first t'

/-- Every write has replaced what the one before it has left, and the last one has left what is stored. -/
def Linked (first : OperatorResource) : List Write → OperatorResource → Prop
  | [], stored => stored = first
  | w :: l, stored => w.after = stored ∧ Linked first l w.before

def writesOf (t : Traffic) (i : Nat) : List Write := t.writes.filter fun w => w.writer.map (·.1) = some i

/-- How an update that ends like this has left its mark on the log. -/
def Accounts (t : Traffic) (i : Nat) (u : Update) : u.Result → Prop
  | .error _ => t.writesOf i = []
  | .ok (x, false) => t.writesOf i = [] ∧ ∃ r ∈ t.history, u.Spares r x
  | .ok (x, true) => ∃ w, t.writesOf i = [w] ∧ u.Tells w.before w.after x

/-- Whether the update of this number may have got so far. -/
def Fits (t : Traffic) (i : Nat) : Stage → Prop
  | .unread => t.writesOf i = []
  | .read r => t.writesOf i = [] ∧ r ∈ t.history
  | .written r q => ∃ w, t.writesOf i = [w] ∧ w.before = r ∧ w.after = q

/-- What is left of the update of this number follows a stage that it may have got to. -/
def Carries (t : Traffic) (i : Nat) (x : Running) : Prop :=
  ∃ stage, t.Fits i stage ∧ x.rest.Follows x.update.Permits x.update.Ends stage

/-- What the log says at any time. -/
structure Recorded (first : OperatorResource) (t : Traffic) : Prop where
  linked : Linked first t.writes t.stored
  versions : (t.history.map OperatorResource.version).Nodup
  known : ∀ w ∈ t.writes, ∀ i u, w.writer = some (i, u) → ∃ x, t.updates[i]? = some x ∧ x.update = u
  replaced : ∀ w ∈ t.writes, ∀ i u, w.writer = some (i, u) → u.Replaces w.before w.after

/-- What holds at any time. An update writes on top of what it has read because no other resource has that version. -/
structure Sound (first : OperatorResource) (t : Traffic) : Prop extends Recorded first t where
  carried : ∀ i x, t.updates[i]? = some x → t.Carries i x

variable {t : Traffic} {first : OperatorResource} {i : Nat} {stage : Stage}

theorem writesOf_replace_self (t : Traffic) (i : Nat) (u : Update) (q : OperatorResource) :
    (t.replace (some (i, u)) q).writesOf i = ⟨some (i, u), t.stored, q⟩ :: t.writesOf i := by
  simp [writesOf, replace]

theorem writesOf_replace_of_ne {writer : Option (Nat × Update)} (h : ∀ u, writer ≠ some (i, u)) (t : Traffic)
    (q : OperatorResource) : (t.replace writer q).writesOf i = t.writesOf i := by
  have hwriter : writer.map (·.1) ≠ some i := by
    rintro hi
    obtain ⟨⟨j, u⟩, rfl, rfl⟩ := Option.map_eq_some_iff.1 hi
    exact h u rfl
  simp [writesOf, replace, hwriter]

theorem Fits.writesOf_eq_nil (h : t.Fits i stage) (hstage : ¬stage.Written) : t.writesOf i = [] := by
  cases stage with
  | unread => exact h
  | read r => exact h.1
  | written r q => exact absurd trivial hstage

theorem Fits.replace {writer : Option (Nat × Update)} (h : t.Fits i stage) (hwriter : ∀ u, writer ≠ some (i, u))
    (q : OperatorResource) : (t.replace writer q).Fits i stage := by
  cases stage with
  | unread => exact (writesOf_replace_of_ne hwriter t q).trans h
  | read r => exact ⟨(writesOf_replace_of_ne hwriter t q).trans h.1, List.mem_cons_of_mem q h.2⟩
  | written r s =>
    obtain ⟨w, hw, hends⟩ := h
    exact ⟨w, (writesOf_replace_of_ne hwriter t q).trans hw, hends⟩

theorem Fits.next_of_leaves {c : Call} {x : c.Answer} (h : t.Fits i stage) (hstage : ¬stage.Written)
    (hx : c.Leaves t.stored x) : t.Fits i (stage.next c x) := by
  cases c with
  | getOperator =>
    cases x with
    | error e => exact h
    | ok q =>
      obtain rfl : q = t.stored := hx
      exact ⟨h.writesOf_eq_nil hstage, List.mem_cons_self⟩
  | writeSpec version spec | writeStatus version status =>
    cases x with
    | error e => exact h
    | ok q => exact hx.elim
  | _ => exact h

variable {t' : Traffic} {q : OperatorResource}

theorem Sound.start (first : OperatorResource) : Sound first { stored := first } where
  linked := rfl
  versions := by simp [history]
  known := by simp
  replaced := by simp
  carried := by simp

theorem Sound.begin (h : Sound first t) (u : Update) :
    Sound first { t with updates := t.updates ++ [⟨u, u.program⟩] } where
  linked := h.linked
  versions := h.versions
  replaced := h.replaced
  known := by
    intro w hw j v hwriter
    obtain ⟨x, hx, hupdate⟩ := h.known w hw j v hwriter
    exact ⟨x, (List.getElem?_append_left (List.getElem?_eq_some_iff.1 hx).1).trans hx, hupdate⟩
  carried := by
    intro j x hx
    by_cases hj : j < t.updates.length
    · exact h.carried j x ((List.getElem?_append_left hj).symm.trans hx)
    · rw [List.getElem?_append_right (Nat.le_of_not_lt hj), List.getElem?_singleton] at hx
      obtain ⟨-, rfl⟩ : j - t.updates.length = 0 ∧ Running.mk u u.program = x := by simpa using hx
      -- no write has the number of an update that was not begun before
      refine ⟨.unread, List.filter_eq_nil_iff.2 fun w hw hwriter => hj ?_, u.follows_program⟩
      obtain ⟨⟨k, v⟩, hk, rfl⟩ := Option.map_eq_some_iff.1 (of_decide_eq_true hwriter)
      obtain ⟨y, hy, -⟩ := h.known w hw k v hk
      exact (List.getElem?_eq_some_iff.1 hy).1

theorem Recorded.proceed {u : Update} {p r : Program u.Result} (h : Recorded first t)
    (hi : t.updates[i]? = some ⟨u, p⟩) : Recorded first (t.proceed i ⟨u, r⟩) where
  linked := h.linked
  versions := h.versions
  replaced := h.replaced
  known := by
    intro w hw j v hwriter
    obtain ⟨x, hx, hupdate⟩ := h.known w hw j v hwriter
    by_cases hj : i = j
    · subst hj
      obtain rfl := Option.some.inj (hi.symm.trans hx)
      exact ⟨⟨u, r⟩, List.getElem?_set_self (List.getElem?_eq_some_iff.1 hi).1, hupdate⟩
    · exact ⟨x, (List.getElem?_set_ne hj).trans hx, hupdate⟩

theorem carried_proceed {y : Running} (hothers : ∀ j x, i ≠ j → t.updates[j]? = some x → t.Carries j x)
    (hy : t.Carries i y) (j : Nat) (x : Running) (hx : (t.proceed i y).updates[j]? = some x) :
    (t.proceed i y).Carries j x := by
  by_cases hj : i = j
  · subst hj
    obtain ⟨hlt, hset⟩ := List.getElem?_eq_some_iff.1 hx
    obtain rfl : y = x := by simpa [Traffic.proceed] using hset
    exact hy
  · exact hothers j x hj ((List.getElem?_set_ne hj).symm.trans hx)

theorem Recorded.replace {writer : Option (Nat × Update)} (h : Recorded first t) (hq : t.Fresh q)
    (hwriter : ∀ i u, writer = some (i, u) → (∃ x, t.updates[i]? = some x ∧ x.update = u) ∧ u.Replaces t.stored q) :
    Recorded first (t.replace writer q) where
  linked := ⟨rfl, h.linked⟩
  versions := by
    refine List.nodup_cons.2 ⟨fun hmem => ?_, h.versions⟩
    obtain ⟨r, hr, hversion⟩ := List.mem_map.1 hmem
    exact hq r hr hversion.symm
  known := by
    intro w hw i u hwu
    rcases List.mem_cons.1 hw with rfl | hw
    · exact (hwriter i u hwu).1
    · exact h.known w hw i u hwu
  replaced := by
    intro w hw i u hwu
    rcases List.mem_cons.1 hw with rfl | hw
    · exact (hwriter i u hwu).2
    · exact h.replaced w hw i u hwu

theorem Recorded.eq_stored {u : Update} {p : OperatorResource} {c : Call} {x : c.Answer} (h : Recorded first t)
    (hp : p ∈ t.history) (hmakes : u.Makes p c) (hx : c.Replaces t.stored q x) : p = t.stored :=
  List.inj_on_of_nodup_map h.versions hp List.mem_cons_self (Update.replaces_of_makes hmakes hx).1

theorem Sound.step (h : Sound first t) (hstep : Step t t') : Sound first t' := by
  cases hstep with
  | begin u => exact h.begin u
  | foreign hq =>
    refine { h.toRecorded.replace hq (by simp) with carried := fun i x hx => ?_ }
    obtain ⟨stage, hfits, hrest⟩ := h.carried i x hx
    exact ⟨stage, hfits.replace (by simp) _, hrest⟩
  | @answer i u c next x hi hx =>
    obtain ⟨stage, hfits, hpermits, hnext⟩ := h.carried i _ hi
    have hstage := hfits.next_of_leaves (Update.not_written_of_permits hpermits) hx
    exact { h.toRecorded.proceed hi with
      carried := carried_proceed (fun j y _ => h.carried j y) ⟨_, hstage, hnext x⟩ }
  | @write i u c next x q hi hx hq =>
    obtain ⟨stage, hfits, hpermits, hnext⟩ := h.carried i _ hi
    obtain ⟨p, rfl, hmakes⟩ := Update.exists_read_of_replaces hpermits hx
    -- no two resources have one version, so what was read is what is stored
    obtain rfl := h.eq_stored hfits.2 hmakes hx
    have hrecorded : Recorded first (t.replace (some (i, u)) q) :=
      h.toRecorded.replace hq fun j v hwriter => by
        obtain ⟨rfl, rfl⟩ := Prod.mk.inj (Option.some.inj hwriter)
        exact ⟨⟨_, hi, rfl⟩, (Update.replaces_of_makes hmakes hx).2 rfl⟩
    refine { hrecorded.proceed hi with carried := carried_proceed (fun j y hj hy => ?_) ⟨.written t.stored q, ?_, ?_⟩ }
    · obtain ⟨stage, hfitsj, hrest⟩ := h.carried j y hy
      exact ⟨stage, hfitsj.replace (fun v hv => hj (Prod.mk.inj (Option.some.inj hv)).1) q, hrest⟩
    · exact ⟨_, (writesOf_replace_self t i u q).trans (congrArg _ hfits.1), rfl, rfl⟩
    · exact Stage.next_of_replaces hx ▸ hnext x

theorem Reachable.sound (h : Reachable first t) : Sound first t := by
  induction h with
  | start => exact .start first
  | step _ hstep ih => exact ih.step hstep

theorem Sound.accounts {u : Update} {x : u.Result} (h : Sound first t) (hi : t.updates[i]? = some ⟨u, .done x⟩) :
    t.Accounts i u x := by
  obtain ⟨stage, hfits, hends⟩ := h.carried i _ hi
  change u.Ends stage x at hends
  rcases x with e | ⟨x, _ | _⟩
  · exact hfits.writesOf_eq_nil hends
  · cases stage with
    | read r => exact ⟨hfits.1, r, hfits.2, hends⟩
    | unread | written => exact hends.elim
  · cases stage with
    | written r q =>
      obtain ⟨w, hw, rfl, rfl⟩ := hfits
      exact ⟨w, hw, hends⟩
    | unread | read => exact hends.elim

end Traffic

end RolloutControl
