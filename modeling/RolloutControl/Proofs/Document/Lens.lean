import RolloutControl.Proofs.Document.Paths
/-! Paths as lenses. What is written at a path is read there, a second write hides the first one, and what was read
before can be written back. A value is removed as it was read. Neither is seen at paths that lie apart. -/

namespace RolloutControl

namespace Fields

open Json

theorem ofValue?_of_ne_obj {j : Option Json} (h : ∀ inner, j = some (.obj inner) → False) : ofValue? j = [] := by
  unfold ofValue?
  split
  · exact (h _ rfl).elim
  · rfl

theorem exists_obj_of_get? {fs : Fields} {k : String} {p : Path} (hp : p ≠ []) {j : Json}
    (h : fs.get? (k :: p) = some j) : ∃ inner, Assoc.lookup k fs = some (.obj inner) ∧ get? inner p = some j := by
  rw [get?_cons fs k hp] at h
  unfold ofValue? at h
  split at h
  · next inner hk => exact ⟨inner, hk, h⟩
  · simp at h

theorem set_set {fs : Fields} (h : fs.Canonical) (p : Path) (v w : Json) :
    (fs.set p v).set p w = fs.set p w := by
  induction p generalizing fs with
  | nil => rfl
  | cons k p ih =>
    by_cases hp : p = []
    · subst hp
      exact Assoc.insert_insert k v w h.1
    · have hinner := ih (h.ofValue? k)
      rw [set_cons _ k hp, set_cons fs k hp, set_cons fs k hp, Assoc.lookup_insert, if_pos rfl, ofValue?_obj,
        hinner, Assoc.insert_insert _ _ _ h.1]

theorem set_of_get? {fs : Fields} (h : fs.Canonical) {p : Path} {v : Json} (hv : fs.get? p = some v) :
    fs.set p v = fs := by
  induction p generalizing fs with
  | nil => rfl
  | cons k p ih =>
    by_cases hp : p = []
    · subst hp
      exact Assoc.insert_of_lookup h.1 hv
    · obtain ⟨inner, hk, hinner⟩ := exists_obj_of_get? hp hv
      rw [set_cons fs k hp, hk, ofValue?_obj, ih (h.lookup hk) hinner, Assoc.insert_of_lookup h.1 hk]

theorem remove_cons (fs : Fields) (k : String) {p : Path} (hp : p ≠ []) :
    fs.remove (k :: p) =
      match Assoc.lookup k fs with
      | some (.obj inner) => Assoc.insert k (.obj (remove inner p)) fs
      | _ => fs := by
  cases p with
  | nil => exact absurd rfl hp
  | cons l p => rfl

theorem pop_cons (fs : Fields) (k : String) {p : Path} (hp : p ≠ []) :
    fs.pop (k :: p) =
      match Assoc.lookup k fs with
      | some (.obj inner) => ((pop inner p).1, Assoc.insert k (.obj (pop inner p).2) fs)
      | _ => (none, fs) := by
  cases p with
  | nil => exact absurd rfl hp
  | cons l p => rfl

theorem pop_fst (fs : Fields) (p : Path) : (fs.pop p).1 = fs.get? p := by
  induction p generalizing fs with
  | nil => rfl
  | cons k p ih =>
    by_cases hp : p = []
    · subst hp
      rfl
    · rw [pop_cons fs k hp, get?_cons fs k hp]
      split
      · next inner hk =>
        rw [hk]
        exact ih inner
      · next hother => rw [ofValue?_of_ne_obj hother, get?_empty]

theorem remove_of_get?_eq_none {fs : Fields} (h : fs.Canonical) {p : Path} (hnone : fs.get? p = none) :
    fs.remove p = fs := by
  induction p generalizing fs with
  | nil => rfl
  | cons k p ih =>
    by_cases hp : p = []
    · subst hp
      exact Assoc.erase_of_lookup_none hnone
    · rw [remove_cons fs k hp]
      split
      · next inner hk =>
        rw [get?_cons fs k hp, hk] at hnone
        rw [ih (h.lookup hk) hnone, Assoc.insert_of_lookup h.1 hk]
      · rfl

@[simp] theorem remove_empty (p : Path) : remove [] p = [] := by
  rcases p with _ | ⟨k, _ | ⟨l, p⟩⟩ <;> rfl

theorem lookup_remove_of_ne (fs : Fields) {k l : String} (h : l ≠ k) (p : Path) :
    Assoc.lookup l (fs.remove (k :: p)) = Assoc.lookup l fs := by
  by_cases hp : p = []
  · subst hp
    simp [remove, h]
  · rw [remove_cons fs k hp]
    split
    · rw [Assoc.lookup_insert, if_neg h]
    · rfl

theorem ofValue?_lookup_remove (fs : Fields) (k : String) {p : Path} (hp : p ≠ []) :
    ofValue? (Assoc.lookup k (fs.remove (k :: p))) = (ofValue? (Assoc.lookup k fs)).remove p := by
  rw [remove_cons fs k hp]
  split
  · next inner hk => rw [Assoc.lookup_insert, if_pos rfl, hk, ofValue?_obj, ofValue?_obj]
  · next hother => rw [ofValue?_of_ne_obj hother, remove_empty]

theorem get?_remove_self (fs : Fields) (p : Path) : (fs.remove p).get? p = none := by
  induction p generalizing fs with
  | nil => rfl
  | cons k p ih =>
    by_cases hp : p = []
    · subst hp
      simp [remove]
    · rw [get?_cons _ k hp, ofValue?_lookup_remove fs k hp]
      exact ih _

theorem get?_remove_of_apart (fs : Fields) {p q : Path} (h : p.Apart q) : (fs.remove p).get? q = fs.get? q :=
  get?_of_apart remove (fun fs _ p _ hl => lookup_remove_of_ne fs hl p)
    (fun fs k _ hp => ofValue?_lookup_remove fs k hp) fs h

end Fields

namespace Document

theorem set_set (d : Document) (p : Path) (v w : Json) : (d.set p v).set p w = d.set p w :=
  ext (Fields.set_set d.canonical p _ _)

theorem set_of_get? {d : Document} {p : Path} {v : Json} (h : d.get? p = some v) : d.set p v = d := by
  refine ext ?_
  change d.fields.set p v.normalize = d.fields
  rw [normalize_of_get? h]
  exact Fields.set_of_get? d.canonical h

theorem pop_eq (d : Document) (p : Path) : d.pop p = (d.get? p, d.remove p) :=
  Prod.ext (d.fields.pop_fst p) (ext (d.fields.pop_snd p))

theorem remove_of_get?_eq_none {d : Document} {p : Path} (h : d.get? p = none) : d.remove p = d :=
  ext (Fields.remove_of_get?_eq_none d.canonical h)

end Document

/-- Reading, writing and removing at a path of a document go together, and keep to it. -/
structure Path.IsLens (p : Path) (d : Document) : Prop where
  get_set : ∀ v : Json, v.Canonical → (d.set p v).get? p = some v
  set_set : ∀ v w : Json, (d.set p v).set p w = d.set p w
  set_get : ∀ v : Json, d.get? p = some v → d.set p v = d
  /-- The document itself is an object in any case. -/
  parents_set : ∀ (v : Json) (q : Path), q ≠ [] → q <+: p → q ≠ p →
    ∃ inner, (d.set p v).get? q = some (.obj inner)
  frame_set : ∀ (v : Json) (q : Path), p.Apart q → (d.set p v).get? q = d.get? q
  popped : (d.pop p).1 = d.get? p
  get_pop : (d.pop p).2.get? p = none
  pop_none : d.get? p = none → (d.pop p).2 = d
  frame_pop : ∀ q : Path, p.Apart q → (d.pop p).2.get? q = d.get? q

namespace Document

/-- Every path but the empty one is a lens on every document, and at the empty one nothing is found or done. -/
theorem paths_are_lenses (d : Document) :
    (∀ p : Path, p ≠ [] → p.IsLens d) ∧
    d.get? [] = none ∧ (∀ v : Json, d.set [] v = d) ∧ d.pop [] = (none, d) := by
  refine ⟨fun p hp => ?_, rfl, fun _ => rfl, pop_eq d []⟩
  exact
    { get_set := fun v hv => by rw [get?_set_self d hp, Json.normalize_of_canonical v hv]
      set_set := d.set_set p
      set_get := fun v hv => set_of_get? hv
      parents_set := fun v q hq hqp hne => Fields.isObj_get?_set d.fields hq hqp hne v.normalize
      frame_set := fun v q hpq => get?_set_of_apart d hpq v
      popped := by rw [pop_eq]
      get_pop := by
        rw [pop_eq]
        exact d.fields.get?_remove_self p
      pop_none := fun hnone => by rw [pop_eq, remove_of_get?_eq_none hnone]
      frame_pop := fun q hpq => by
        rw [pop_eq]
        exact d.fields.get?_remove_of_apart hpq }

/-- Objects take the place of a scalar that stands in the way, and are left behind. -/
example :
    let d := (ofFields [("a", .str "scalar")]).set ["a", "b", "c"] (.str "leaf")
    d = ofFields [("a", .obj [("b", .obj [("c", .str "leaf")])])] ∧
      d.pop ["a", "b", "c"] = (some (.str "leaf"), ofFields [("a", .obj [("b", .obj [])])]) := by
  decide +kernel

end Document

end RolloutControl
