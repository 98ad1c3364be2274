import RolloutControl.Proofs.Cache.History
import RolloutControl.Proofs.Cluster.Labels
/-! A cache is the map that the watch events describe. It holds an object for as long as the events say that the object
exists, it is read in the order of references, and no reader is ahead of it. -/

namespace RolloutControl

variable {α : Type} [ClusterObject α]

namespace WatchEvent

variable {e : WatchEvent α} {r : ObjectRef} {a : α}

/-- The event says that this object exists under the reference. Of several objects in one list the last one counts. -/
def Brings (e : WatchEvent α) (r : ObjectRef) (a : α) : Prop :=
  ∃ earlier later, e.existing = earlier ++ a :: later ∧ objectRef a = r ∧ ∀ b ∈ later, objectRef b ≠ r

/-- What earlier events say of the reference does not count any more. -/
def Overrules (e : WatchEvent α) (r : ObjectRef) : Prop :=
  match e with
  | .applied a | .deleted a => objectRef a = r
  | .restarted _ => True

theorem brings_iff : e.Brings r a ↔ Cache.lastOf r e.existing = some a := by
  rw [Cache.lastOf, List.find?_eq_some_iff_append]
  constructor
  · rintro ⟨earlier, later, hexisting, href, hlater⟩
    refine ⟨decide_eq_true href, later.reverse, earlier.reverse, by simp [hexisting], fun b hb => ?_⟩
    have hne : objectRef b ≠ r := hlater b (List.mem_reverse.1 hb)
    simp [hne]
  · rintro ⟨href, later, earlier, hexisting, hlater⟩
    have hsplit : e.existing = earlier.reverse ++ a :: later.reverse := by
      rw [← List.reverse_inj, hexisting]
      simp
    exact ⟨earlier.reverse, later.reverse, hsplit, of_decide_eq_true href, by simpa using hlater⟩

theorem Brings.overrules (h : e.Brings r a) : e.Overrules r := by
  obtain ⟨earlier, later, hexisting, href, -⟩ := h
  have hmem : a ∈ e.existing := by simp [hexisting]
  cases e with
  | applied b =>
    have hab : a = b := List.mem_singleton.1 hmem
    exact hab ▸ href
  | deleted b => simp [existing] at hmem
  | restarted l => trivial

end WatchEvent

namespace Cache

variable {r : ObjectRef} {a : α} {events : List (WatchEvent α)}

/-- The events say that this object exists under the reference, and none of those that came later overrules that. -/
def Holds (events : List (WatchEvent α)) (r : ObjectRef) (a : α) : Prop :=
  ∃ earlier e later, events = earlier ++ e :: later ∧ e.Brings r a ∧ ∀ x ∈ later, ¬x.Overrules r

theorem Holds.objectRef_eq (h : Holds events r a) : objectRef a = r := by
  obtain ⟨_, _, _, -, ⟨_, _, -, href, -⟩, -⟩ := h
  exact href

theorem lastWord_of_overrules {e : WatchEvent α} (h : e.Overrules r) (earlier : List (WatchEvent α)) :
    lastWord r (e :: earlier) = lastOf r e.existing := by
  cases e with
  | applied b =>
    have href : objectRef b = r := h
    simp [lastWord, lastOf, WatchEvent.existing, href]
  | deleted b =>
    have href : objectRef b = r := h
    simp [lastWord, lastOf, WatchEvent.existing, href]
  | restarted l => rfl

theorem lastWord_of_not_overrules {e : WatchEvent α} (h : ¬e.Overrules r) (earlier : List (WatchEvent α)) :
    lastWord r (e :: earlier) = lastWord r earlier := by
  cases e with
  | applied b | deleted b => exact if_neg fun hr => h hr.symm
  | restarted l => exact absurd trivial h

theorem lastWord_eq_some {latest : List (WatchEvent α)} : lastWord r latest = some a ↔
    ∃ later e earlier, latest = later ++ e :: earlier ∧ e.Brings r a ∧ ∀ x ∈ later, ¬x.Overrules r := by
  induction latest with
  | nil => simp [lastWord]
  | cons x latest ih =>
    -- an event that overrules hides all that came before it
    by_cases hx : x.Overrules r
    · rw [lastWord_of_overrules hx, ← WatchEvent.brings_iff]
      constructor
      · intro h
        exact ⟨[], x, latest, rfl, h, by simp⟩
      · rintro ⟨later, e, earlier, hsplit, h, hlater⟩
        rcases List.cons_eq_append_iff.1 hsplit with ⟨-, hhead⟩ | ⟨newer, rfl, -⟩
        · obtain ⟨rfl, -⟩ := List.cons.inj hhead
          exact h
        · exact absurd hx (hlater x List.mem_cons_self)
    · rw [lastWord_of_not_overrules hx, ih]
      constructor
      · rintro ⟨later, e, earlier, rfl, h, hlater⟩
        exact ⟨x :: later, e, earlier, rfl, h, List.forall_mem_cons.2 ⟨hx, hlater⟩⟩
      · rintro ⟨later, e, earlier, hsplit, h, hlater⟩
        rcases List.cons_eq_append_iff.1 hsplit with ⟨-, hhead⟩ | ⟨newer, rfl, htail⟩
        · obtain ⟨rfl, -⟩ := List.cons.inj hhead
          exact absurd h.overrules hx
        · exact ⟨newer, e, earlier, htail, h, (List.forall_mem_cons.1 hlater).2⟩

theorem get?_ofEvents_eq_some : Dict.get? (ofEvents events) r = some a ↔ Holds events r a := by
  rw [get?_ofEvents, lastWord_eq_some]
  constructor
  · rintro ⟨later, e, earlier, hsplit, h, hlater⟩
    have hevents : events = earlier.reverse ++ e :: later.reverse := by
      rw [← List.reverse_inj, hsplit]
      simp
    exact ⟨earlier.reverse, e, later.reverse, hevents, h, by simpa using hlater⟩
  · rintro ⟨earlier, e, later, rfl, h, hlater⟩
    exact ⟨later.reverse, e, earlier.reverse, by simp, h, by simpa using hlater⟩

theorem get?_ofEvents_eq_none : Dict.get? (ofEvents events) r = none ↔ ∀ a, ¬Holds events r a := by
  simp only [Option.eq_none_iff_forall_ne_some, ne_eq, get?_ofEvents_eq_some]

/-- These are the held objects with the property, each of them once, in the order of their references. -/
structure Lists (events : List (WatchEvent α)) (p : α → Prop) (l : List α) : Prop where
  mem_iff : ∀ a, a ∈ l ↔ Holds events (objectRef a) a ∧ p a
  sorted : l.Pairwise fun a b => objectRef a < objectRef b

theorem mem_entries_ofEvents {e : ObjectRef × α} : e ∈ Dict.entries (ofEvents events) ↔ Holds events e.1 e.2 :=
  Dict.mem_entries_iff.trans get?_ofEvents_eq_some

theorem mem_list {a : α} : a ∈ (ofEvents events).list ↔ Holds events (objectRef a) a := by
  simp only [list, List.mem_map, Prod.exists, mem_entries_ofEvents, exists_eq_right]
  constructor
  · rintro ⟨r, h⟩
    exact h.objectRef_eq.symm ▸ h
  · intro h
    exact ⟨objectRef a, h⟩

theorem pairwise_list (events : List (WatchEvent α)) :
    (ofEvents events).list.Pairwise fun a b => objectRef a < objectRef b := by
  rw [list, List.pairwise_map]
  refine (ofEvents events).ascending.imp_of_mem fun {d e} hd he hlt => ?_
  rw [(mem_entries_ofEvents.1 hd).objectRef_eq, (mem_entries_ofEvents.1 he).objectRef_eq]
  exact hlt

theorem lists_filter (events : List (WatchEvent α)) {p : α → Prop} {wanted : α → Bool}
    (h : ∀ a, wanted a = true ↔ p a) : Lists events p ((ofEvents events).list.filter wanted) where
  mem_iff a := by rw [List.mem_filter, mem_list, h]
  sorted := (pairwise_list events).filter _

/-- What is read off entries that are enumerated in any order: those that are wanted are collected and sorted. -/
def snapshot (wanted : α → Bool) (entries : List (ObjectRef × α)) : List α :=
  ((entries.filter fun e => wanted e.2).mergeSort fun d e => !decide (e.1 < d.1)).map (·.2)

omit [ClusterObject α] in
theorem pairwise_mergeSort_entries (l : List (ObjectRef × α)) :
    (l.mergeSort fun d e => !decide (e.1 < d.1)).Pairwise fun d e => ¬e.1 < d.1 := by
  refine (List.pairwise_mergeSort ?_ ?_ l).imp fun {d e} hle => by simpa using hle
  · intro d e f hde hef
    simp only [Bool.not_eq_true', decide_eq_false_iff_not] at hde hef ⊢
    exact KeyOrder.not_lt_trans hde hef
  · intro d e
    by_cases hed : e.1 < d.1
    · simp [KeyOrder.asymm hed]
    · simp [hed]

omit [ClusterObject α] in
/-- The order of enumeration does not matter, because no two entries have the same reference. -/
theorem snapshot_of_perm {c : Cache α} {entries : List (ObjectRef × α)} (h : entries.Perm (Dict.entries c))
    (wanted : α → Bool) : snapshot wanted entries = c.list.filter wanted := by
  have hperm : ((entries.filter fun e => wanted e.2).mergeSort fun d e => !decide (e.1 < d.1)).Perm
      ((Dict.entries c).filter fun e => wanted e.2) := (List.mergeSort_perm _ _).trans (h.filter _)
  have hsorted := pairwise_mergeSort_entries (entries.filter fun e => wanted e.2)
  have hascending : ((Dict.entries c).filter fun e => wanted e.2).Pairwise fun d e => ¬e.1 < d.1 :=
    (c.ascending.filter _).imp KeyOrder.asymm
  have heq := hperm.eq_of_pairwise (fun d e hd he hde hed => ?_) hsorted hascending
  · rw [snapshot, heq, list, List.filter_map]
    rfl
  · have hkey : d.1 = e.1 := KeyOrder.connected hed hde
    have hd := Dict.mem_entries_iff.1 (List.mem_filter.1 (hperm.mem_iff.1 hd)).1
    have he := Dict.mem_entries_iff.1 (List.mem_filter.1 he).1
    rw [hkey, he] at hd
    exact Prod.ext hkey (Option.some.inj hd.symm)

theorem getElem?_follow (c : Cache α) (events : List (WatchEvent α)) (i : Nat) :
    (follow c events)[i]? = events[i]?.map fun e => (e, (events.take (i + 1)).foldl apply c) := by
  induction events generalizing c i with
  | nil => rfl
  | cons e events ih =>
    cases i with
    | zero => rfl
    | succ i =>
      have htail : (follow c (e :: events))[i + 1]? = (follow (c.apply e) events)[i]? := rfl
      rw [htail, ih, List.getElem?_cons_succ, List.take_succ_cons, List.foldl_cons]

/-- The cache after these events is the map that they describe, for all who read it. -/
structure Mirrors (events : List (WatchEvent α)) : Prop where
  held : ∀ r a, Dict.get? (ofEvents events) r = some a ↔ Holds events r a
  /-- An object in the namespace goes before one of that name in no namespace. -/
  within : ∀ space name a, (ofEvents events).within? space name = some a ↔
    Holds events ⟨name, some space⟩ a ∨ (∀ b, ¬Holds events ⟨name, some space⟩ b) ∧ Holds events ⟨name, none⟩ a
  spaceless : ∀ name a, (ofEvents events).find? ⟨name, none⟩ = some a ↔ Holds events ⟨name, none⟩ a
  list : Lists events (fun _ => True) (ofEvents events).list
  listIn : ∀ space, Lists events (fun a => (ClusterObject.metadata a).space = some space)
    ((ofEvents events).listIn space)
  listMatching : ∀ space (selector : Labels), Lists events (fun a => (ClusterObject.metadata a).space = some space ∧
    selector.Within ((ClusterObject.metadata a).labels.getD ∅)) ((ofEvents events).listMatching space selector)
  /-- The lists are the same in whatever order the entries are stored. -/
  unhashed : ∀ entries, entries.Perm (Dict.entries (ofEvents events)) → ∀ wanted : α → Bool,
    snapshot wanted entries = (ofEvents events).list.filter wanted
  /-- They are the same for all events that say the same in the end. -/
  settled : ∀ events' : List (WatchEvent α), (∀ r a, Holds events' r a ↔ Holds events r a) →
    ofEvents events' = ofEvents events
  followed : ∀ i, (follow ∅ events)[i]? = events[i]?.map fun e => (e, ofEvents (events.take (i + 1)))

theorem mirrors_ofEvents (events : List (WatchEvent α)) : Mirrors events where
  held r a := get?_ofEvents_eq_some
  within space name a := by
    rw [within?, find?, Option.orElse_eq_orElse, Option.orElse_eq_or, Option.or_eq_some_iff, get?_ofEvents_eq_some,
      get?_ofEvents_eq_none, get?_ofEvents_eq_some]
  spaceless name a := by
    rw [find?, ← get?_ofEvents_eq_some]
    cases Dict.get? (ofEvents events) ⟨name, none⟩ <;> simp
  list := ⟨fun a => mem_list.trans (and_true _).symm.to_iff, pairwise_list events⟩
  listIn space := lists_filter events fun a => decide_eq_true_iff
  listMatching space selector := lists_filter events fun a => by
    rw [Bool.and_eq_true, decide_eq_true_iff, selects_iff_within]
  unhashed entries h wanted := snapshot_of_perm h wanted
  settled events' h := Dict.ext fun r => Option.ext fun a => by
    rw [get?_ofEvents_eq_some, get?_ofEvents_eq_some, h]
  followed i := getElem?_follow ∅ events i

end Cache

end RolloutControl
