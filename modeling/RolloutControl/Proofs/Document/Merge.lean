import RolloutControl.Document.Merge
import RolloutControl.Proofs.Document.Paths
/-! Deep merge, path by path. The second document decides wherever it holds something, hides what lies
behind a value of its own that is no object, and leaves the rest as it is. Two documents that only share
objects can be merged into a third one in either order. -/

namespace RolloutControl

namespace Fields

open Json

/-- Induction over objects that hold objects under their keys. -/
theorem inner_induction {motive : Fields → Prop}
    (step : ∀ fs : Fields, (∀ k inner, Assoc.lookup k fs = some (.obj inner) → motive inner) → motive fs)
    (fs : Fields) : motive fs :=
  step fs fun k inner hk => by
    have hmem := List.sizeOf_lt_of_mem (Assoc.mem_of_lookup hk)
    exact inner_induction step inner
termination_by sizeOf fs
decreasing_by
  simp only [Prod.mk.sizeOf_spec, Json.obj.sizeOf_spec] at hmem
  omega

theorem lookup_merge (fs : Fields) {new : Fields} (h : Assoc.Ascending new) (k : String) :
    Assoc.lookup k (merge fs new) =
      match Assoc.lookup k new with
      | some j => some (mergeValue (Assoc.lookup k fs) j)
      | none => Assoc.lookup k fs := by
  induction new generalizing fs with
  | nil => rfl
  | cons e r ih =>
    obtain ⟨l, x⟩ := e
    obtain ⟨hl, hr⟩ := List.pairwise_cons.1 h
    rw [merge, ih _ hr, Assoc.lookup_cons, Assoc.lookup_insert]
    by_cases hk : k = l
    · subst hk
      have hout : Assoc.lookup k r = none :=
        Assoc.lookup_eq_none.2 fun e he heq => String.lt_irrefl k (by simpa [heq] using hl e he)
      simp [hout]
    · simp [hk]

theorem merge_nil (new : Fields) (h : new.Canonical) : merge [] new = new := by
  induction new using inner_induction with
  | step new ih =>
    have hmerged : Canonical (merge [] new) := canonical_merge ⟨List.Pairwise.nil, trivial⟩ new h.2
    refine Assoc.ext_lookup hmerged.1 h.1 fun k => ?_
    rw [lookup_merge [] h.1]
    cases hk : Assoc.lookup k new with
    | none => rfl
    | some j =>
      cases j with
      | obj inner => exact congrArg (some ∘ Json.obj) (ih k inner hk (h.lookup hk))
      | _ => rfl

theorem mergeValue_none (j : Json) (h : j.Canonical) : mergeValue none j = j := by
  cases j with
  | obj new => exact congrArg Json.obj (merge_nil new h)
  | _ => rfl

theorem isObj_mergeValue (old : Option Json) (j : Json) : (mergeValue old j).isObj = j.isObj := by
  cases j <;> simp [mergeValue, isObj, obj?]

/-- Whether a value that is no object stands in the way to a path. -/
def blocks (fs : Fields) : Path → Bool
  | [] => false
  | [_] => false
  | k :: rest =>
    match Assoc.lookup k fs with
    | none => false
    | some (.obj inner) => blocks inner rest
    | some _ => true

theorem blocks_cons (fs : Fields) (k : String) {p : Path} (hp : p ≠ []) :
    fs.blocks (k :: p) =
      match Assoc.lookup k fs with
      | none => false
      | some (.obj inner) => blocks inner p
      | some _ => true := by
  cases p with
  | nil => exact absurd rfl hp
  | cons l p => rfl

theorem blocks_eq_false {fs : Fields} {p : Path}
    (h : ∀ q j, q <+: p → q ≠ p → fs.get? q = some j → j.isObj) : fs.blocks p = false := by
  induction p generalizing fs with
  | nil => rfl
  | cons k p ih =>
    by_cases hp : p = []
    · subst hp
      rfl
    rw [blocks_cons fs k hp]
    cases hk : Assoc.lookup k fs with
    | none => rfl
    | some j =>
      have hobj := h [k] j (List.prefix_append [k] p) (by simpa using Ne.symm hp) hk
      cases j with
      | obj inner =>
        refine ih fun q j hq hne hj => h (k :: q) j (List.cons_prefix_cons.2 ⟨rfl, hq⟩) (by simpa using hne) ?_
        rwa [get?_cons_of_obj hk (ne_nil_of_get? hj)]
      | _ => simp [isObj, obj?] at hobj

theorem get?_merge (fs : Fields) {new : Fields} (h : new.Canonical) (p : Path) :
    (merge fs new).get? p =
      match new.get? p with
      | some j => some (mergeValue (fs.get? p) j)
      | none => if new.blocks p then none else fs.get? p := by
  induction p generalizing fs new with
  | nil => rfl
  | cons k p ih =>
    by_cases hp : p = []
    · subst hp
      simp [lookup_merge fs h.1, blocks]
    rw [get?_cons _ k hp, get?_cons _ k hp, get?_cons _ k hp, lookup_merge fs h.1, blocks_cons new k hp]
    cases hk : Assoc.lookup k new with
    | none => simp
    | some j =>
      cases j with
      | obj inner => exact ih _ (h.lookup hk)
      | _ => simp [mergeValue, ofValue?]

/-- Two objects have nothing but objects in common. -/
def Compatible (f g : Fields) : Prop :=
  ∀ p x y, f.get? p = some x → g.get? p = some y → x.isObj ∧ y.isObj

theorem Compatible.inner {f g a b : Fields} (h : f.Compatible g) {k : String}
    (ha : Assoc.lookup k f = some (.obj a)) (hb : Assoc.lookup k g = some (.obj b)) : a.Compatible b := by
  intro p x y hx hy
  have hp : p ≠ [] := ne_nil_of_get? hx
  exact h (k :: p) x y (by rwa [get?_cons_of_obj ha hp]) (by rwa [get?_cons_of_obj hb hp])

theorem Compatible.of_lookup {f g : Fields} (h : f.Compatible g) {k : String} {x y : Json}
    (hx : Assoc.lookup k f = some x) (hy : Assoc.lookup k g = some y) :
    ∃ a b, x = .obj a ∧ y = .obj b := by
  obtain ⟨hxobj, hyobj⟩ := h [k] x y hx hy
  obtain ⟨a, rfl⟩ := isObj_iff.1 hxobj
  obtain ⟨b, rfl⟩ := isObj_iff.1 hyobj
  exact ⟨a, b, rfl, rfl⟩

theorem merge_right_comm (fs f g : Fields) (hfs : fs.Canonical) (hf : f.Canonical) (hg : g.Canonical)
    (h : f.Compatible g) : merge (merge fs f) g = merge (merge fs g) f := by
  induction f using inner_induction generalizing fs g with
  | step f ih =>
    have hleft : Canonical (merge (merge fs f) g) := canonical_merge (canonical_merge hfs f hf.2) g hg.2
    have hright : Canonical (merge (merge fs g) f) := canonical_merge (canonical_merge hfs g hg.2) f hf.2
    refine Assoc.ext_lookup hleft.1 hright.1 fun k => ?_
    rw [lookup_merge _ hg.1, lookup_merge _ hf.1, lookup_merge _ hf.1, lookup_merge _ hg.1]
    cases hx : Assoc.lookup k f with
    | none => cases Assoc.lookup k g <;> rfl
    | some x =>
      cases hy : Assoc.lookup k g with
      | none => rfl
      | some y =>
        obtain ⟨a, b, rfl, rfl⟩ := h.of_lookup hx hy
        have hinner := ih k a hx (ofValue? (Assoc.lookup k fs)) b (hfs.ofValue? k) (hf.lookup hx)
          (hg.lookup hy) (h.inner hx hy)
        simp only [mergeValue, ofValue?_obj, hinner]

end Fields

namespace Document

variable {p : Path} {paths : List Path}

theorem get?_merge (d e : Document) (p : Path) :
    (d.merge e).get? p =
      match e.get? p with
      | some j => some (Fields.mergeValue (d.get? p) j)
      | none => if e.fields.blocks p then none else d.get? p :=
  Fields.get?_merge d.fields e.canonical p

/-- Where the first document holds nothing, the second one is seen. -/
theorem get?_merge_of_none {d : Document} (e : Document) (h : d.get? p = none) :
    (d.merge e).get? p = e.get? p := by
  rw [get?_merge, h]
  cases he : e.get? p with
  | none => simp
  | some j => exact congrArg some (Fields.mergeValue_none j (e.canonical.get? he))

theorem get?_merge_eq_some {d e : Document} {j : Json} (h : (d.merge e).get? p = some j) :
    (∃ x, e.get? p = some x ∧ j = Fields.mergeValue (d.get? p) x) ∨ d.get? p = some j := by
  rw [get?_merge] at h
  cases he : e.get? p with
  | some x =>
    rw [he] at h
    exact .inl ⟨x, rfl, (Option.some.inj h).symm⟩
  | none =>
    simp only [he, Option.ite_none_left_eq_some] at h
    exact .inr h.2

theorem ConfinedTo.get?_of_apart {d : Document} (h : d.ConfinedTo paths) (hp : ∀ q ∈ paths, q.Apart p) :
    d.get? p = none := by
  rw [Option.eq_none_iff_forall_ne_some]
  intro j hj
  rcases h p j hj with ⟨q, hq, hqp⟩ | ⟨-, q, hq, hpq⟩
  · exact (hp q hq).1 hqp
  · exact (hp q hq).2 hpq

/-- A document is not seen at paths that lie apart from all of its own. -/
theorem get?_merge_of_apart (d : Document) {e : Document} (h : e.ConfinedTo paths)
    (hp : ∀ q ∈ paths, q.Apart p) : (d.merge e).get? p = d.get? p := by
  have hclear : e.fields.blocks p = false := by
    refine Fields.blocks_eq_false fun r j hr _ hj => ?_
    rcases h r j hj with ⟨q, hq, hqr⟩ | ⟨hobj, -⟩
    · exact absurd (hqr.trans hr) (hp q hq).1
    · exact hobj
  rw [get?_merge, h.get?_of_apart hp, hclear]
  simp

/-- Documents with paths that lie apart have nothing but objects in common. -/
theorem ConfinedTo.compatible {d e : Document} {paths' : List Path} (hd : d.ConfinedTo paths)
    (he : e.ConfinedTo paths') (h : ∀ p ∈ paths, ∀ q ∈ paths', p.Apart q) :
    d.fields.Compatible e.fields := by
  intro r x y hx hy
  rcases hd r x hx with ⟨p, hp, hpr⟩ | ⟨hxobj, p, hp, hrp⟩
  · exfalso
    rcases he r y hy with ⟨q, hq, hqr⟩ | ⟨-, q, hq, hrq⟩
    · have hapart := h p hp q hq
      rcases List.prefix_or_prefix_of_prefix hpr hqr with hpq | hqp
      · exact hapart.1 hpq
      · exact hapart.2 hqp
    · exact (h p hp q hq).1 (hpr.trans hrq)
  · refine ⟨hxobj, ?_⟩
    rcases he r y hy with ⟨q, hq, hqr⟩ | ⟨hyobj, -⟩
    · exact absurd (hqr.trans hrp) (h p hp q hq).2
    · exact hyobj

theorem merge_right_comm (d : Document) {e f : Document} (h : e.fields.Compatible f.fields) :
    (d.merge e).merge f = (d.merge f).merge e :=
  ext (Fields.merge_right_comm d.fields e.fields f.fields d.canonical e.canonical f.canonical h)

end Document

end RolloutControl
