import RolloutControl.Proofs.Status.Conduct
/-! Whole cycles of both controllers at the same time. Every call of a cycle is a step of its own, and others write what
they like in between. Since a cycle writes the operator resource by its updates only, all that comes of it is a traffic
of updates, and no update is lost. -/

namespace RolloutControl

/-- A write that has succeeded, by a cycle of a controller or by somebody else. -/
structure Interplay.Entry where
  author : Option Controller
  before : OperatorResource
  after : OperatorResource

/-- A cycle of a controller, and what is left of it. -/
structure Interplay.Cycle where
  author : Controller
  rest : Program (Except Error Action)

/-- The resource, the writes that have succeeded, the last one first, and the cycles that were begun. -/
structure Interplay where
  stored : OperatorResource
  writes : List Interplay.Entry := []
  cycles : List Interplay.Cycle := []

inductive Controller.Cycles (s : Settings) : Controller → Program (Except Error Action) → Prop
  | workload : Cycles s .workload (Workload.cycle s)
  | observer (observers : List Observer) (settings : Settings) (order : List Nat) :
    Cycles s .observer (Observer.cycle observers settings order)

theorem Controller.Cycles.updates {s : Settings} {author : Controller} {cycle : Program (Except Error Action)}
    (h : author.Cycles s cycle) : cycle.Updates (Update.IsBy s author) := by
  cases h with
  | workload => exact Workload.updates_cycle s
  | observer observers settings order => exact Observer.updates_cycle observers settings order

namespace Interplay

def Fresh (p : Interplay) (q : OperatorResource) : Prop :=
  ∀ r ∈ p.stored :: p.writes.map (·.before), q.version ≠ r.version

def replace (p : Interplay) (author : Option Controller) (q : OperatorResource) : Interplay :=
  { p with stored := q, writes := ⟨author, p.stored, q⟩ :: p.writes }

def proceed (p : Interplay) (k : Nat) (x : Cycle) : Interplay := { p with cycles := p.cycles.set k x }

inductive Step (s : Settings) (p : Interplay) : Interplay → Prop
  | begin {author : Controller} {cycle : Program (Except Error Action)} (h : author.Cycles s cycle) :
    Step s p { p with cycles := p.cycles ++ [⟨author, cycle⟩] }
  | answer {k : Nat} {author : Controller} {c : Call} {next : c.Answer → Program (Except Error Action)} {x : c.Answer}
      (hk : p.cycles[k]? = some ⟨author, .call c next⟩) (hx : c.Leaves p.stored x) :
    Step s p (p.proceed k ⟨author, next x⟩)
  | write {k : Nat} {author : Controller} {c : Call} {next : c.Answer → Program (Except Error Action)} {x : c.Answer}
      {q : OperatorResource} (hk : p.cycles[k]? = some ⟨author, .call c next⟩) (hx : c.Replaces p.stored q x)
      (hq : p.Fresh q) :
    Step s p ((p.replace (some author) q).proceed k ⟨author, next x⟩)
  | foreign {q : OperatorResource} (hq : p.Fresh q) : Step s p (p.replace none q)

/-- Everything that can become of a resource, while any number of cycles is begun. -/
inductive Reachable (s : Settings) (first : OperatorResource) : Interplay → Prop
  | start : Reachable s first { stored := first }
  | step {p p' : Interplay} (h : Reachable s first p) (hstep : Step s p p') : Reachable s first p'

/-- The entry stands for a write of the traffic. -/
structure Records (s : Settings) (e : Entry) (w : Write) : Prop where
  before : w.before = e.before
  after : w.after = e.after
  author : ∀ a, e.author = some a → ∃ i u, w.writer = some (i, u) ∧ Update.IsBy s a u
  foreign : e.author = none → w.writer = none

/-- A cycle is between two updates, or within the one that has this number in the traffic. -/
inductive Performs (s : Settings) (t : Traffic) : Option Nat → Cycle → Prop
  | between {author : Controller} {p : Program (Except Error Action)} (h : p.Updates (Update.IsBy s author)) :
    Performs s t none ⟨author, p⟩
  | within {i : Nat} {author : Controller} {u : Update} {p : Program u.Result}
      {f : u.Result → Program (Except Error Action)} (hi : t.updates[i]? = some ⟨u, p⟩) (hu : Update.IsBy s author u)
      (hf : ∀ x, (f x).Updates (Update.IsBy s author)) : Performs s t (some i) ⟨author, p >>= f⟩

/-- The traffic stores and writes the same, and has an update of its own for every cycle that is within one. -/
structure Carries (s : Settings) (first : OperatorResource) (place : Nat → Option Nat) (p : Interplay) (t : Traffic) :
    Prop where
  reachable : Traffic.Reachable first t
  stored : t.stored = p.stored
  writes : List.Forall₂ (Records s) p.writes t.writes
  made : ∀ x ∈ t.updates, x.update.IsMadeFor s
  known : ∀ k i, place k = some i → k < p.cycles.length
  apart : ∀ k l i, place k = some i → place l = some i → k = l
  performs : ∀ k x, p.cycles[k]? = some x → Performs s t (place k) x

variable {s : Settings} {first : OperatorResource} {place : Nat → Option Nat} {p q : Interplay} {t t' : Traffic}
  {k : Nat} {author : Controller}

theorem Performs.congr {o : Option Nat} {x : Cycle} (h : Performs s t o x)
    (hupdates : ∀ i, o = some i → t'.updates[i]? = t.updates[i]?) : Performs s t' o x := by
  cases h with
  | between hp => exact .between hp
  | within hi hu hf => exact .within ((hupdates _ rfl).trans hi) hu hf

theorem Carries.lt (h : Carries s first place p t) {i : Nat} (hplace : place k = some i) : i < t.updates.length := by
  obtain ⟨x, hk⟩ : ∃ x, p.cycles[k]? = some x := ⟨_, List.getElem?_eq_getElem (h.known k i hplace)⟩
  have hx := h.performs k x hk
  rw [hplace] at hx
  cases hx with
  | within hi hu hf => exact (List.getElem?_eq_some_iff.1 hi).1

theorem map_before_eq {l : List Entry} {m : List Write} (h : List.Forall₂ (Records s) l m) :
    m.map (·.before) = l.map (·.before) := by
  induction h with
  | nil => rfl
  | cons hw _ ih => rw [List.map_cons, List.map_cons, ih, hw.before]

theorem Carries.fresh (h : Carries s first place p t) {r : OperatorResource} (hr : p.Fresh r) : t.Fresh r := by
  intro x hx
  rw [Traffic.history, map_before_eq h.writes, h.stored] at hx
  exact hr x hx

theorem Carries.start (s : Settings) (first : OperatorResource) :
    Carries s first (fun _ => none) { stored := first } { stored := first } where
  reachable := .start
  stored := rfl
  writes := .nil
  made := by simp
  known := by simp
  apart := by simp
  performs := by simp

theorem Carries.settle (h : Carries s first place p t) {x : Cycle} (hk : p.cycles[k]? = some x) {o : Option Nat}
    (hfree : ∀ i, o = some i → ∀ l, l ≠ k → place l ≠ some i) (hx : Performs s t o x) :
    Carries s first (Function.update place k o) p t where
  reachable := h.reachable
  stored := h.stored
  writes := h.writes
  made := h.made
  known := by
    intro l i hl
    by_cases hlk : l = k
    · exact hlk ▸ (List.getElem?_eq_some_iff.1 hk).1
    · rw [Function.update_of_ne hlk] at hl
      exact h.known l i hl
  apart := by
    intro l m i hl hm
    by_cases hlk : l = k <;> by_cases hmk : m = k
    · rw [hlk, hmk]
    · rw [hlk, Function.update_self] at hl
      rw [Function.update_of_ne hmk] at hm
      exact absurd hm (hfree i hl m hmk)
    · rw [hmk, Function.update_self] at hm
      rw [Function.update_of_ne hlk] at hl
      exact absurd hl (hfree i hm l hlk)
    · rw [Function.update_of_ne hlk] at hl
      rw [Function.update_of_ne hmk] at hm
      exact h.apart l m i hl hm
  performs := by
    intro l y hl
    by_cases hlk : l = k
    · subst hlk
      obtain rfl := Option.some.inj (hk.symm.trans hl)
      rwa [Function.update_self]
    · rw [Function.update_of_ne hlk]
      exact h.performs l y hl

theorem Carries.begin (h : Carries s first place p t) {u : Update} (hu : u.IsMadeFor s) :
    Carries s first place p { t with updates := t.updates ++ [⟨u, u.program⟩] } where
  reachable := h.reachable.step (.begin u)
  stored := h.stored
  writes := h.writes
  made := by
    intro x hx
    rcases List.mem_append.1 hx with hx | hx
    · exact h.made x hx
    · obtain rfl := List.mem_singleton.1 hx
      exact hu
  known := h.known
  apart := h.apart
  performs k x hk := (h.performs k x hk).congr fun _ hplace => List.getElem?_append_left (h.lt hplace)

theorem Carries.move (h : Carries s first place p t) {x : Cycle} (hreachable : Traffic.Reachable first t')
    (hstored : t'.stored = q.stored) (hwrites : List.Forall₂ (Records s) q.writes t'.writes)
    (hmade : ∀ y ∈ t'.updates, y.update.IsMadeFor s) (hcycles : q.cycles = p.cycles.set k x)
    (hothers : ∀ l i, l ≠ k → place l = some i → t'.updates[i]? = t.updates[i]?) (hx : Performs s t' (place k) x) :
    Carries s first place q t' where
  reachable := hreachable
  stored := hstored
  writes := hwrites
  made := hmade
  known l i hl := by simpa [hcycles] using h.known l i hl
  apart := h.apart
  performs := by
    intro l y hl
    rw [hcycles] at hl
    by_cases hlk : l = k
    · subst hlk
      obtain ⟨hlt, hset⟩ := List.getElem?_eq_some_iff.1 hl
      obtain rfl : x = y := by simpa using hset
      exact hx
    · rw [List.getElem?_set_ne (Ne.symm hlk)] at hl
      exact (h.performs l y hl).congr fun i hplace => hothers l i hlk hplace

section call
variable {c : Call} {next : c.Answer → Program (Except Error Action)}

/-- What a call means for the traffic: nothing, or it is the next call of one of its updates. -/
inductive Calls (s : Settings) (t : Traffic) (author : Controller) (c : Call)
    (next : c.Answer → Program (Except Error Action)) : Option Nat → Prop
  | silent (hc : ¬c.IsWrite) (hnext : ∀ x, (next x).Updates (Update.IsBy s author)) : Calls s t author c next none
  | update {i : Nat} {u : Update} {rest : c.Answer → Program u.Result} {f : u.Result → Program (Except Error Action)}
      (hi : t.updates[i]? = some ⟨u, .call c rest⟩) (hu : Update.IsBy s author u)
      (hf : ∀ x, (f x).Updates (Update.IsBy s author)) (hnext : ∀ x, next x = rest x >>= f) :
    Calls s t author c next (some i)

theorem Carries.exists_calls_of_updates (h : Carries s first place p t)
    (hk : p.cycles[k]? = some ⟨author, .call c next⟩) (hrest : (Program.call c next).Updates (Update.IsBy s author)) :
    ∃ place' t', Carries s first place' p t' ∧ Calls s t' author c next (place' k) := by
  rcases hrest.cases_call rfl with ⟨hc, hnext⟩ | ⟨u, f, hu, hf, hprogram⟩
  · refine ⟨Function.update place k none, t, h.settle hk (fun i hi => nomatch hi) (.between hrest), ?_⟩
    rw [Function.update_self]
    exact .silent hc hnext
  · obtain ⟨rest, hu'⟩ : ∃ rest, u.program = .call .getOperator rest := by cases u <;> exact ⟨_, rfl⟩
    have hbegun := h.begin hu.1
    have hi : (t.updates ++ [⟨u, u.program⟩])[t.updates.length]? = some ⟨u, u.program⟩ := by simp
    have hfree : ∀ i, some t.updates.length = some i → ∀ l, l ≠ k → place l ≠ some i := by
      rintro i hlength l - hl
      exact absurd (h.lt hl) (Option.some.inj hlength ▸ Nat.lt_irrefl _)
    refine ⟨Function.update place k (some t.updates.length), _,
      hbegun.settle hk hfree (hprogram ▸ .within hi hu hf), ?_⟩
    rw [Function.update_self]
    have hcall : (t.updates ++ [⟨u, u.program⟩])[t.updates.length]? = some ⟨u, .call .getOperator rest⟩ := by
      rw [hi, hu']
    rw [hu'] at hprogram
    cases hprogram
    exact .update hcall hu hf fun _ => rfl

/-- A cycle that is about to make a call is between two updates, at the beginning of one, or within one. -/
theorem Carries.exists_calls (h : Carries s first place p t) (hk : p.cycles[k]? = some ⟨author, .call c next⟩) :
    ∃ place' t', Carries s first place' p t' ∧ Calls s t' author c next (place' k) := by
  have hx := h.performs k _ hk
  generalize hrest : Program.call c next = rest at hx
  generalize hplace : place k = o at hx
  cases hx with
  | between hupdates => exact h.exists_calls_of_updates hk (hrest ▸ hupdates)
  | @within i _ u r f hi hu hf =>
    cases r with
    | done x =>
      have hupdates : (Program.call c next).Updates (Update.IsBy s author) := hrest ▸ hf x
      exact h.exists_calls_of_updates hk hupdates
    | call d r =>
      cases hrest
      exact ⟨place, t, h, hplace ▸ .update hi hu hf fun _ => rfl⟩

theorem Carries.made_proceed (h : Carries s first place p t) {i : Nat} {u : Update} (hu : Update.IsBy s author u)
    (r : Program u.Result) : ∀ x ∈ (t.proceed i ⟨u, r⟩).updates, x.update.IsMadeFor s := by
  intro x hx
  rcases List.mem_or_eq_of_mem_set hx with hx | rfl
  · exact h.made x hx
  · exact hu.1

theorem Carries.getElem?_proceed (h : Carries s first place p t) {i : Nat} (hplace : place k = some i) (x : Running)
    (l j : Nat) (hl : l ≠ k) (hplace' : place l = some j) : (t.proceed i x).updates[j]? = t.updates[j]? := by
  refine List.getElem?_set_ne ?_
  rintro rfl
  exact hl (h.apart l k i hplace' hplace)

theorem Carries.answer (h : Carries s first place p t) (hk : p.cycles[k]? = some ⟨author, .call c next⟩) {x : c.Answer}
    (hx : c.Leaves p.stored x) :
    ∃ place' t', Carries s first place' (p.proceed k ⟨author, next x⟩) t' := by
  obtain ⟨place', t', h', hcalls⟩ := h.exists_calls hk
  generalize hplace : place' k = o at hcalls
  cases hcalls with
  | silent hc hnext =>
    refine ⟨place', t', h'.move h'.reachable h'.stored h'.writes h'.made rfl (fun _ _ _ _ => rfl) ?_⟩
    rw [hplace]
    exact .between (hnext x)
  | @update i u rest f hi hu hf hnext =>
    have hreachable := h'.reachable.step (.answer hi (h'.stored ▸ hx))
    have hset : (t'.proceed i ⟨u, rest x⟩).updates[i]? = some ⟨u, rest x⟩ :=
      List.getElem?_set_self (List.getElem?_eq_some_iff.1 hi).1
    refine ⟨place', _, h'.move hreachable h'.stored h'.writes (h'.made_proceed hu _) rfl
      (h'.getElem?_proceed hplace _) ?_⟩
    rw [hplace, hnext]
    exact .within hset hu hf

theorem isWrite_of_replaces {r r' : OperatorResource} {x : c.Answer} (hx : c.Replaces r r' x) : c.IsWrite := by
  cases c with
  | writeSpec => exact .inl trivial
  | writeStatus => exact .inr trivial
  | _ => exact hx.elim

theorem Carries.write (h : Carries s first place p t) (hk : p.cycles[k]? = some ⟨author, .call c next⟩) {x : c.Answer}
    {r : OperatorResource} (hx : c.Replaces p.stored r x) (hr : p.Fresh r) :
    ∃ place' t', Carries s first place' ((p.replace (some author) r).proceed k ⟨author, next x⟩) t' := by
  obtain ⟨place', t', h', hcalls⟩ := h.exists_calls hk
  generalize hplace : place' k = o at hcalls
  cases hcalls with
  | silent hc hnext => exact absurd (isWrite_of_replaces hx) hc
  | @update i u rest f hi hu hf hnext =>
    have hreachable := h'.reachable.step (.write hi (h'.stored ▸ hx) (h'.fresh hr))
    have hset : (t'.proceed i ⟨u, rest x⟩).updates[i]? = some ⟨u, rest x⟩ :=
      List.getElem?_set_self (List.getElem?_eq_some_iff.1 hi).1
    have hrecords : Records s ⟨some author, p.stored, r⟩ ⟨some (i, u), t'.stored, r⟩ :=
      ⟨h'.stored, rfl, fun a ha => ⟨i, u, rfl, Option.some.inj ha ▸ hu⟩, fun hnone => nomatch hnone⟩
    refine ⟨place', _, h'.move hreachable rfl (.cons hrecords h'.writes) (h'.made_proceed hu _) rfl
      (h'.getElem?_proceed hplace _) ?_⟩
    rw [hplace, hnext]
    exact .within hset hu hf

end call

theorem Carries.foreign (h : Carries s first place p t) {r : OperatorResource} (hr : p.Fresh r) :
    Carries s first place (p.replace none r) (t.replace none r) where
  reachable := h.reachable.step (.foreign (h.fresh hr))
  stored := rfl
  writes := .cons ⟨h.stored, rfl, (fun _ ha => nomatch ha), fun _ => rfl⟩ h.writes
  made := h.made
  known := h.known
  apart := h.apart
  performs k x hk := (h.performs k x hk).congr fun _ _ => rfl

theorem Carries.beginCycle (h : Carries s first place p t) {cycle : Program (Except Error Action)}
    (hcycle : author.Cycles s cycle) :
    Carries s first place { p with cycles := p.cycles ++ [⟨author, cycle⟩] } t where
  reachable := h.reachable
  stored := h.stored
  writes := h.writes
  made := h.made
  known k i hk := by
    rw [List.length_append]
    exact Nat.lt_add_right _ (h.known k i hk)
  apart := h.apart
  performs k x hk := by
    rcases Nat.lt_or_ge k p.cycles.length with hlt | hge
    · exact h.performs k x ((List.getElem?_append_left hlt).symm.trans hk)
    · have hnone : place k = none :=
        Option.eq_none_iff_forall_ne_some.2 fun i hi => absurd (h.known k i hi) (Nat.not_lt.2 hge)
      rw [List.getElem?_append_right hge] at hk
      obtain rfl := List.mem_singleton.1 (List.mem_of_getElem? hk)
      rw [hnone]
      exact .between hcycle.updates

/-- Whatever becomes of the cycles is a traffic of updates that are made for the controllers. -/
theorem Reachable.exists_carries (h : Reachable s first p) : ∃ place t, Carries s first place p t := by
  -- a step of the cycles is a step of the traffic, or one that the traffic does not see
  induction h with
  | start => exact ⟨_, _, .start s first⟩
  | step _ hstep ih =>
    obtain ⟨place, t, ih⟩ := ih
    cases hstep with
    | begin hcycle => exact ⟨place, t, ih.beginCycle hcycle⟩
    | answer hk hx => exact ih.answer hk hx
    | write hk hx hq => exact ih.write hk hx hq
    | foreign hq => exact ⟨place, _, ih.foreign hq⟩

/-- The status as a cycle of the controller has last written it, or the first one. -/
def lastStatus (p : Interplay) (first : OperatorResource) (author : Controller) : OperatorStatus :=
  (((p.writes.find? fun e => e.author = some author).map (·.after)).getD first).statusOrEmpty

theorem exists_records {l : List Entry} {m : List Write} (h : List.Forall₂ (Records s) l m) {e : Entry} (he : e ∈ l) :
    ∃ w ∈ m, Records s e w := by
  induction h with
  | nil => exact nomatch he
  | @cons d w l m hw _ ih =>
    rcases List.mem_cons.1 he with rfl | he
    · exact ⟨w, List.mem_cons_self, hw⟩
    · obtain ⟨v, hv, hrecords⟩ := ih he
      exact ⟨v, List.mem_cons_of_mem w hv, hrecords⟩

theorem value_eq_of_records {α : Type} {f : OperatorStatus → α} {l : List Entry} {m : List Write}
    (h : List.Forall₂ (Records s) l m) {stored : OperatorResource} (hlinked : Traffic.Linked first m stored)
    {kind : Entry → Bool}
    (hkept : ∀ e ∈ l, kind e = false → f e.after.statusOrEmpty = f e.before.statusOrEmpty) :
    f stored.statusOrEmpty = f (((l.find? kind).map (·.after)).getD first).statusOrEmpty := by
  induction h generalizing stored with
  | nil => exact congrArg (fun r => f r.statusOrEmpty) hlinked
  | @cons e w l m hw _ ih =>
    obtain ⟨rfl, hlinked⟩ := hlinked
    cases hkind : kind e with
    | true => simp [hkind, hw.after]
    | false =>
      have hbefore := ih hlinked fun d hd => hkept d (List.mem_cons_of_mem e hd)
      rw [hw.after, hkept e List.mem_cons_self hkind, ← hw.before, List.find?_cons_of_neg (by simp [hkind])]
      exact hbefore

/-- While any number of cycles runs, each write of a cycle is one of the updates of its controller, of what was stored
right before. If cycles alone write a field of the status, it says what a cycle of the controller that it belongs to has
last written. -/
theorem Reachable.cycles_lose_nothing (h : Reachable s first p) :
    (∀ e ∈ p.writes, ∀ a, e.author = some a → ∃ u, Update.IsBy s a u ∧ u.Replaces e.before e.after) ∧
      ∀ (f : StatusField) (author : Controller), f.BelongsTo s author →
        (∀ e ∈ p.writes, e.author = none → f.value e.after.statusOrEmpty = f.value e.before.statusOrEmpty) →
        f.value p.stored.statusOrEmpty = f.value (p.lastStatus first author) := by
  obtain ⟨place, t, hcarries⟩ := h.exists_carries
  have hsound := hcarries.reachable.sound
  have hreplaces : ∀ e ∈ p.writes, ∀ a, e.author = some a → ∃ u, Update.IsBy s a u ∧ u.Replaces e.before e.after := by
    intro e he a ha
    obtain ⟨w, hw, hrecords⟩ := exists_records hcarries.writes he
    obtain ⟨i, u, hwriter, hu⟩ := hrecords.author a ha
    exact ⟨u, hu, hrecords.before ▸ hrecords.after ▸ hsound.replaced w hw i u hwriter⟩
  refine ⟨hreplaces, fun f author hf hforeign => ?_⟩
  rw [← hcarries.stored]
  refine value_eq_of_records hcarries.writes hsound.linked fun e he hkind => ?_
  cases ha : e.author with
  | none => exact hforeign e he ha
  | some a =>
    obtain ⟨u, hu, hreplaced⟩ := hreplaces e he a ha
    have hne : u.author? ≠ some author := by
      intro hauthor
      have hkind' : a ≠ author := by simpa [ha] using hkind
      exact hkind' (hu.2 author hauthor).symm
    exact Traffic.value_eq_of_author_ne hf hu.1 hne hreplaced

end Interplay

end RolloutControl
