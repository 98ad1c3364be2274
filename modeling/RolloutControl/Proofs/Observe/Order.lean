import Mathlib.Data.List.Perm.Basic
import RolloutControl.Proofs.Document.Merge
import RolloutControl.Proofs.Observe.Fragments
/-! The order in which observers are asked. No path of an observer leads to one of another observer, so
what they see has only objects in common, and is put together to the same document in any order. -/

namespace RolloutControl

theorem Path.overlaps_iff {p q : Path} : p.overlaps q ↔ p <+: q ∨ q <+: p := by
  induction p generalizing q with
  | nil => simp [overlaps]
  | cons k p ih =>
    cases q with
    | nil => simp [overlaps]
    | cons l q =>
      have hrest : Path.overlaps (k :: p) (l :: q) = (k == l && Path.overlaps p q) := rfl
      rw [hrest, Bool.and_eq_true, ih, beq_iff_eq, List.cons_prefix_cons, List.cons_prefix_cons]
      constructor
      · rintro ⟨rfl, h⟩
        exact h.imp (⟨rfl, ·⟩) (⟨rfl, ·⟩)
      · rintro (⟨rfl, h⟩ | ⟨rfl, h⟩)
        · exact ⟨rfl, .inl h⟩
        · exact ⟨rfl, .inr h⟩

theorem Path.not_overlaps_iff {p q : Path} : ¬p.overlaps q ↔ p.Apart q := by
  rw [overlaps_iff, not_or, Apart]

namespace Observer

variable {observers : List Observer} {facts : Facts} {existing : Document}

/-- No path of one observer leads to a path of the other. -/
def Apart (a b : Observer) : Prop := ∀ p ∈ a.paths, ∀ q ∈ b.paths, p.Apart q

theorem Apart.symm {a b : Observer} (h : a.Apart b) : b.Apart a :=
  fun p hp q hq => (h q hq p hp).symm

/-- Whatever the observer sees, it says something about its own paths only. -/
def Confined (o : Observer) : Prop :=
  ∀ facts existing, (o.observe facts existing).config.ConfinedTo o.paths

theorem clash?_eq_none {a b : Observer} : a.clash? b = none ↔ a.Apart b := by
  simp only [clash?, List.findSome?_eq_none_iff, Option.map_eq_none_iff, List.find?_eq_none,
    Path.not_overlaps_iff, Apart]

theorem overlap?_eq_none : overlap? observers = none ↔ observers.Pairwise Apart := by
  induction observers with
  | nil => simp [overlap?]
  | cons a r ih => simp [overlap?, Option.or_eq_none_iff, clash?_eq_none, ih]

def asked (observers : List Observer) (order : List Nat) : List Observer :=
  order.filterMap (observers[·]?)

theorem mem_asked {order : List Nat} {o : Observer} :
    o ∈ asked observers order ↔ ∃ i ∈ order, observers[i]? = some o := by
  simp [asked]

theorem mem_of_mem_asked {order : List Nat} {o : Observer} (h : o ∈ asked observers order) :
    o ∈ observers := by
  obtain ⟨i, -, hi⟩ := mem_asked.1 h
  exact List.mem_of_getElem? hi

theorem asked_range (observers : List Observer) :
    asked observers (List.range observers.length) = observers := by
  induction observers with
  | nil => rfl
  | cons o r ih =>
    rw [asked, List.length_cons, List.range_succ_eq_map, List.filterMap_cons, List.filterMap_map]
    exact congrArg (List.cons o) ih

theorem asked_perm {order : List Nat} (h : order.Perm (List.range observers.length)) :
    (asked observers order).Perm observers :=
  (h.filterMap _).trans (.of_eq (asked_range observers))

def merged (observers : List Observer) (facts : Facts) (existing : Document) : Document :=
  observers.foldl (fun d o => d.merge (o.observe facts existing).config) ∅

theorem foldl_join (observers : List Observer) (facts : Facts) (existing : Document) (seen : Observation) :
    observers.foldl (fun acc o => acc.join (o.observe facts existing)) seen =
      { config := observers.foldl (fun d o => d.merge (o.observe facts existing).config) seen.config
        errors := seen.errors ++ observers.flatMap fun o => (o.observe facts existing).errors
        events := seen.events ++ observers.flatMap fun o => (o.observe facts existing).events } := by
  induction observers generalizing seen with
  | nil => simp
  | cons o r ih =>
    rw [List.foldl_cons, ih]
    simp [Observation.join]

theorem config_observeIn (observers : List Observer) (order : List Nat) (facts : Facts)
    (existing : Document) :
    (observeIn observers order facts existing).config = merged (asked observers order) facts existing :=
  congrArg Observation.config (foldl_join (asked observers order) facts existing {})

theorem errors_observeIn (observers : List Observer) (order : List Nat) (facts : Facts)
    (existing : Document) :
    (observeIn observers order facts existing).errors =
      (asked observers order).flatMap fun o => (o.observe facts existing).errors :=
  congrArg Observation.errors (foldl_join (asked observers order) facts existing {})

/-- Two of the observers that are asked are one and the same, or have nothing to do with each other. -/
theorem eq_or_apart_of_mem_asked {order : List Nat} (h : observers.Pairwise Apart) {a b : Observer}
    (ha : a ∈ asked observers order) (hb : b ∈ asked observers order) : a = b ∨ a.Apart b := by
  obtain ⟨i, -, hi⟩ := mem_asked.1 ha
  obtain ⟨j, -, hj⟩ := mem_asked.1 hb
  obtain ⟨hilt, rfl⟩ := List.getElem?_eq_some_iff.1 hi
  obtain ⟨hjlt, rfl⟩ := List.getElem?_eq_some_iff.1 hj
  rw [List.pairwise_iff_getElem] at h
  rcases Nat.lt_trichotomy i j with hij | rfl | hij
  · exact .inr (h i j hilt hjlt hij)
  · exact .inl rfl
  · exact .inr (h j i hjlt hilt hij).symm

theorem merged_asked_perm (hconfined : ∀ o ∈ observers, o.Confined) (happart : observers.Pairwise Apart)
    {order order' : List Nat} (h : order.Perm order') :
    merged (asked observers order) facts existing = merged (asked observers order') facts existing := by
  refine (h.filterMap _).foldl_eq' (fun a ha b hb d => ?_) ∅
  rcases eq_or_apart_of_mem_asked happart ha hb with rfl | hab
  · rfl
  have hcompatible : (a.observe facts existing).config.fields.Compatible
      (b.observe facts existing).config.fields :=
    (hconfined a (mem_of_mem_asked ha) facts existing).compatible
      (hconfined b (mem_of_mem_asked hb) facts existing) hab
  exact d.merge_right_comm hcompatible

theorem errors_observeIn_perm (observers : List Observer) (facts : Facts) (existing : Document)
    {order order' : List Nat} (h : order.Perm order') :
    (observeIn observers order facts existing).errors.Perm
      (observeIn observers order' facts existing).errors := by
  rw [errors_observeIn, errors_observeIn]
  exact (h.filterMap _).flatMap_right _

theorem confined_of_mem_builtIn {sources : Facts → List DeployedSource} {o : Observer}
    (h : o ∈ builtInOver sources) : o.Confined :=
  fun facts existing => ((builtIn_outcome h facts).holdsOnly existing).confinedTo

theorem overlap?_builtInOver (sources : Facts → List DeployedSource) :
    overlap? (builtInOver sources) = none := rfl

/-- Observers that own apart paths and keep to them see the same document and the same errors in any order,
and the observers of the operator are of this kind. -/
theorem order_is_irrelevant :
    (∀ observers, overlap? observers = none → (∀ o ∈ observers, o.Confined) →
      ∀ facts existing (order order' : List Nat), order.Perm order' →
        (observeIn observers order facts existing).config =
          (observeIn observers order' facts existing).config ∧
        (observeIn observers order facts existing).errors.Perm
          (observeIn observers order' facts existing).errors) ∧
    ∀ sources, overlap? (builtInOver sources) = none ∧ ∀ o ∈ builtInOver sources, o.Confined := by
  refine ⟨fun observers hoverlap hconfined facts existing order order' h => ⟨?_, ?_⟩, fun sources => ⟨?_, ?_⟩⟩
  · rw [config_observeIn, config_observeIn]
    exact merged_asked_perm hconfined (overlap?_eq_none.1 hoverlap) h
  · exact errors_observeIn_perm observers facts existing h
  · exact overlap?_builtInOver sources
  · exact fun o h => confined_of_mem_builtIn h

/-- The address of a member of etcd cannot be read, and there is no ingress domain. -/
def twoFaults : Facts where
  view :=
    { configMaps := Cache.ofObjects
        [{ metadata := { name := some "etcd-endpoints", space := some "openshift-etcd" }
           data := some (Dict.ofList [("a", "x")]) },
         { metadata := { name := some "ingress-config", space := some "openshift-config" }
           data := some ∅ }] }
  settings := {}

theorem two_faults_in_two_orders :
    (observeIn builtIn [0, 1, 2, 3, 4] twoFaults ∅).config =
      (observeIn builtIn [2, 0, 1, 3, 4] twoFaults ∅).config ∧
    (observeIn builtIn [0, 1, 2, 3, 4] twoFaults ∅).errors.Perm
      (observeIn builtIn [2, 0, 1, 3, 4] twoFaults ∅).errors :=
  order_is_irrelevant.1 builtIn (overlap?_builtInOver _) (fun _ => confined_of_mem_builtIn) _ _ _ _ (by decide)

end Observer

end RolloutControl
