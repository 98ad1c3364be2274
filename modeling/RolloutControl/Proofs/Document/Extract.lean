import RolloutControl.Proofs.Document.Lens
import RolloutControl.Proofs.Document.Merge
/-! Extracts. Values are copied one by one, each over what has been copied before, yet the paths may lie above or
below one another and may be repeated: what comes out is the part of the document at and below these paths, and
merging it back adds nothing. -/

namespace RolloutControl

/-- A value as it is, and of an object only that it is one. -/
def Json.outline : Json → Json
  | .obj _ => .obj []
  | j => j

theorem Json.outline_eq_outline {x y : Json} (h : x.outline = y.outline) :
    x = y ∧ x.isObj = false ∨ ∃ a b, x = .obj a ∧ y = .obj b := by
  cases x with
  | obj a =>
    cases y with
    | obj b => exact .inr ⟨a, b, rfl, rfl⟩
    | _ => simp [outline] at h
  | _ =>
    cases y with
    | obj b => simp [outline] at h
    | _ => exact .inl ⟨h, rfl⟩

namespace Fields

open Json

theorem get?_congr_of_prefix {f g : Fields} {p q : Path} (h : f.get? p = g.get? p) (hp : p ≠ [])
    (hpq : p <+: q) : f.get? q = g.get? q := by
  induction p generalizing f g q with
  | nil => exact absurd rfl hp
  | cons k p ih =>
    obtain ⟨rest, rfl⟩ := hpq
    by_cases hnil : p = []
    · subst hnil
      exact get?_congr h rest
    · have hne : p ++ rest ≠ [] := List.append_ne_nil_of_left_ne_nil hnil rest
      rw [get?_cons f k hnil, get?_cons g k hnil] at h
      rw [List.cons_append, get?_cons f k hne, get?_cons g k hne]
      exact ih h hnil (List.prefix_append p rest)

theorem exists_obj_of_prefix {f : Fields} {p q : Path} {j : Json} (h : f.get? q = some j) (hp : p ≠ [])
    (hpq : p <+: q) (hne : p ≠ q) : ∃ inner, f.get? p = some (.obj inner) := by
  induction p generalizing f q with
  | nil => exact absurd rfl hp
  | cons k p ih =>
    obtain ⟨rest, rfl⟩ := hpq
    have hrest : p ++ rest ≠ [] := by
      intro hnil
      obtain ⟨rfl, rfl⟩ := List.append_eq_nil_iff.1 hnil
      exact hne rfl
    obtain ⟨inner, hk, hinner⟩ := exists_obj_of_get? hrest h
    by_cases hnil : p = []
    · subst hnil
      exact ⟨inner, hk⟩
    · rw [get?_cons_of_obj hk hnil]
      exact ih hinner hnil (List.prefix_append p rest) fun he => hne (congrArg (k :: ·) he)

/-- Whatever the first one holds the second one holds as well, objects with more in them perhaps. -/
def PartOf (f g : Fields) : Prop := ∀ p j, f.get? p = some j → (g.get? p).map outline = some j.outline

theorem PartOf.inner {f g a b : Fields} (h : f.PartOf g) {k : String} (ha : Assoc.lookup k f = some (.obj a))
    (hb : Assoc.lookup k g = some (.obj b)) : a.PartOf b := by
  intro p j hj
  have hp : p ≠ [] := ne_nil_of_get? hj
  have hbelow := h (k :: p) j (by rwa [get?_cons_of_obj ha hp])
  rwa [get?_cons_of_obj hb hp] at hbelow

theorem PartOf.lookup {f g : Fields} (h : f.PartOf g) {k : String} {x : Json} (hx : Assoc.lookup k f = some x) :
    Assoc.lookup k g = some x ∧ x.isObj = false ∨ ∃ a b, x = .obj a ∧ Assoc.lookup k g = some (.obj b) := by
  obtain ⟨y, hy, hxy⟩ := Option.map_eq_some_iff.1 (h [k] x hx)
  obtain ⟨rfl, hleaf⟩ | ⟨b, a, rfl, rfl⟩ := outline_eq_outline hxy
  · exact .inl ⟨hy, hleaf⟩
  · exact .inr ⟨a, b, rfl, hy⟩

theorem PartOf.antisymm {f g : Fields} (hf : f.Canonical) (hg : g.Canonical) (h : f.PartOf g) (h' : g.PartOf f) :
    f = g := by
  induction f using inner_induction generalizing g with
  | step f ih =>
    refine Assoc.ext_lookup hf.1 hg.1 fun k => ?_
    cases hx : Assoc.lookup k f with
    | none =>
      cases hy : Assoc.lookup k g with
      | none => rfl
      | some y => rcases h'.lookup hy with ⟨hk, -⟩ | ⟨_, _, _, hk⟩ <;> simp [hx] at hk
    | some x =>
      rcases h.lookup hx with ⟨hy, -⟩ | ⟨a, b, rfl, hy⟩
      · exact hy.symm
      · have hinner : a = b :=
          ih k a hx (hf.lookup hx) (hg.lookup hy) (h.inner hx hy) (h'.inner hy hx)
        rw [hy, hinner]

theorem mergeValue_of_isObj_eq_false (old : Option Json) {j : Json} (h : j.isObj = false) :
    mergeValue old j = j := by
  cases j with
  | obj fs => simp [isObj] at h
  | _ => rfl

theorem merge_of_partOf {f g : Fields} (hf : f.Canonical) (hg : g.Canonical) (h : g.PartOf f) :
    merge f g = f := by
  induction g using inner_induction generalizing f with
  | step g ih =>
    refine Assoc.ext_lookup (canonical_merge hf g hg.2).1 hf.1 fun k => ?_
    rw [lookup_merge f hg.1]
    cases hy : Assoc.lookup k g with
    | none => rfl
    | some y =>
      dsimp only
      rcases h.lookup hy with ⟨hx, hleaf⟩ | ⟨b, a, rfl, hx⟩
      · rw [hx, mergeValue_of_isObj_eq_false _ hleaf]
      · have hinner : merge a b = a := ih k b hy (hf.lookup hx) (hg.lookup hy) (h.inner hy hx)
        rw [hx, mergeValue, ofValue?_obj, hinner]

end Fields

namespace Document

open Json

variable {d e out : Document} {p q : Path} {paths paths' : List Path}

def PartOf (d e : Document) : Prop := d.fields.PartOf e.fields

theorem PartOf.antisymm (h : d.PartOf e) (h' : e.PartOf d) : d = e :=
  ext (Fields.PartOf.antisymm d.canonical e.canonical h h')

theorem merge_of_partOf (h : e.PartOf d) : d.merge e = d :=
  ext (Fields.merge_of_partOf d.canonical e.canonical h)

theorem partOf_empty (d : Document) : (∅ : Document).PartOf d := by
  intro p j hj
  have hnone : (∅ : Document).get? p = none := get?_empty p
  cases hnone.symm.trans hj

theorem PartOf.get?_eq_none (h : d.PartOf e) (hp : e.get? p = none) : d.get? p = none := by
  cases hj : d.get? p with
  | none => rfl
  | some j =>
    have hsome : (e.get? p).map outline = some j.outline := h p j hj
    simp [hp] at hsome

theorem copyTo_of_none (out : Document) (h : d.get? p = none) : d.copyTo out p = out := by
  rw [copyTo, h]

theorem copyTo_of_some (out : Document) {v : Json} (h : d.get? p = some v) : d.copyTo out p = out.set p v := by
  rw [copyTo, h]

theorem get?_set_of_get? (out : Document) {v : Json} (h : d.get? p = some v) :
    (out.set p v).get? p = d.get? p := by
  rw [get?_set_self out (ne_nil_of_get? h), normalize_of_get? h, h]

/-- A copy brings nothing but what the document has, and objects on the way to it. -/
theorem PartOf.copyTo (h : out.PartOf d) (p : Path) : (d.copyTo out p).PartOf d := by
  cases hv : d.get? p with
  | none => rwa [copyTo_of_none out hv]
  | some v =>
    rw [copyTo_of_some out hv]
    intro q j hj
    by_cases hpq : p <+: q
    · have hbelow : (out.set p v).get? q = d.get? q :=
        Fields.get?_congr_of_prefix (get?_set_of_get? out hv) (ne_nil_of_get? hv) hpq
      exact congrArg (Option.map outline) (hbelow.symm.trans hj)
    by_cases hqp : q <+: p
    · have hqne : q ≠ [] := ne_nil_of_get? hj
      have hne : q ≠ p := fun he => hpq (he ▸ List.prefix_refl q)
      obtain ⟨a, ha⟩ := Fields.isObj_get?_set out.fields hqne hqp hne v.normalize
      obtain ⟨b, hb⟩ := Fields.exists_obj_of_prefix hv hqne hqp hne
      obtain rfl : j = .obj a := Option.some.inj (hj.symm.trans ha)
      rw [hb]
      rfl
    · exact h q j ((get?_set_of_apart out ⟨hpq, hqp⟩ v).symm.trans hj)

/-- What has been copied stays, whatever is copied after it. -/
theorem get?_copyTo_of_eq (h : out.get? q = d.get? q) (p : Path) : (d.copyTo out p).get? q = d.get? q := by
  cases hv : d.get? p with
  | none => rwa [copyTo_of_none out hv]
  | some v =>
    rw [copyTo_of_some out hv]
    by_cases hpq : p <+: q
    · exact Fields.get?_congr_of_prefix (get?_set_of_get? out hv) (ne_nil_of_get? hv) hpq
    by_cases hqp : q <+: p
    · by_cases hqne : q = []
      · subst hqne
        rfl
      -- the value is there already, inside of what was copied
      have hthere : out.get? p = some v := (Fields.get?_congr_of_prefix h hqne hqp).trans hv
      rw [set_of_get? hthere, h]
    · exact (get?_set_of_apart out ⟨hpq, hqp⟩ v).trans h

theorem PartOf.foldl_copyTo (h : out.PartOf d) (paths : List Path) : (paths.foldl d.copyTo out).PartOf d := by
  induction paths generalizing out with
  | nil => exact h
  | cons p r ih => exact ih (h.copyTo p)

theorem get?_foldl_copyTo_of_eq (h : out.get? p = d.get? p) (paths : List Path) :
    (paths.foldl d.copyTo out).get? p = d.get? p := by
  induction paths generalizing out with
  | nil => exact h
  | cons q r ih => exact ih (get?_copyTo_of_eq h q)

theorem get?_foldl_copyTo_of_mem (h : out.PartOf d) (hp : p ∈ paths) :
    (paths.foldl d.copyTo out).get? p = d.get? p := by
  induction paths generalizing out with
  | nil => simp at hp
  | cons q r ih =>
    rw [List.foldl_cons]
    rcases List.mem_cons.1 hp with rfl | hp
    · refine get?_foldl_copyTo_of_eq ?_ r
      cases hv : d.get? p with
      | none => rw [copyTo_of_none out hv, h.get?_eq_none hv]
      | some v => rw [copyTo_of_some out hv, get?_set_of_get? out hv, hv]
    · exact ih (h.copyTo q) hp

theorem partOf_extract (d : Document) (paths : List Path) : (d.extract paths).PartOf d :=
  d.partOf_empty.foldl_copyTo paths

/-- At each of the paths, the document is seen, wherever the other paths lead. -/
theorem get?_extract_of_mem (d : Document) (hp : p ∈ paths) : (d.extract paths).get? p = d.get? p :=
  get?_foldl_copyTo_of_mem d.partOf_empty hp

theorem get?_extract_of_prefix (d : Document) (hp : p ∈ paths) (hne : p ≠ []) (hpq : p <+: q) :
    (d.extract paths).get? q = d.get? q :=
  Fields.get?_congr_of_prefix (d.get?_extract_of_mem hp) hne hpq

theorem extract_partOf_extract (d : Document) (hpaths : [] ∉ paths) (hsub : ∀ p ∈ paths, p ∈ paths') :
    (d.extract paths).PartOf (d.extract paths') := by
  intro p j hj
  have hbelow : ∀ q ∈ paths, q <+: p → (d.extract paths').get? p = some j := by
    intro q hq hqp
    have hqne : q ≠ [] := fun he => hpaths (he ▸ hq)
    rw [d.get?_extract_of_prefix (hsub q hq) hqne hqp, ← d.get?_extract_of_prefix hq hqne hqp]
    exact hj
  rcases d.holdsOnly_extract paths p j hj with ⟨q, hq, hqp⟩ | ⟨hobj, q, hq, hpq, hsome⟩
  · exact congrArg (Option.map outline) (hbelow q hq hqp)
  · obtain ⟨a, rfl⟩ := isObj_iff.1 hobj
    by_cases hne : p = q
    · exact congrArg (Option.map outline) (hbelow q hq (hne ▸ List.prefix_refl q))
    rw [d.get?_extract_of_mem hq, ← d.get?_extract_of_mem (hsub q hq)] at hsome
    obtain ⟨v, hv⟩ := Option.isSome_iff_exists.1 hsome
    obtain ⟨b, hb⟩ := Fields.exists_obj_of_prefix hv (ne_nil_of_get? hj) hpq hne
    rw [hb]
    rfl

theorem extract_eq_of_mem_iff (d : Document) (hpaths : [] ∉ paths) (h : ∀ p, p ∈ paths' ↔ p ∈ paths) :
    d.extract paths' = d.extract paths :=
  (d.extract_partOf_extract (mt (h []).1 hpaths) fun p => (h p).1).antisymm
    (d.extract_partOf_extract hpaths fun p => (h p).2)

/-- An extract is the restriction of a document to some paths: all that it holds there, no value anywhere else, and the
same from the same paths in any order. It adds nothing to the document it was taken from, nor is there less in an
extract of the extract. -/
theorem extract_is_restriction (d : Document) (paths : List Path) (hpaths : [] ∉ paths) :
    (∀ p ∈ paths, (d.extract paths).get? p = d.get? p) ∧
    (∀ p j, (d.extract paths).get? p = some j → j.isObj = false →
      (∃ q ∈ paths, q <+: p) ∧ d.get? p = some j) ∧
    (∀ paths' : List Path, (∀ p, p ∈ paths' ↔ p ∈ paths) → d.extract paths' = d.extract paths) ∧
    d.merge (d.extract paths) = d ∧
    (d.extract paths).extract paths = d.extract paths := by
  refine ⟨fun p hp => d.get?_extract_of_mem hp, fun p j hj hleaf => ?_,
    fun paths' h => d.extract_eq_of_mem_iff hpaths h, merge_of_partOf (d.partOf_extract paths),
    extract_congr fun p hp => d.get?_extract_of_mem hp⟩
  rcases d.holdsOnly_extract paths p j hj with ⟨q, hq, hqp⟩ | ⟨hobj, -⟩
  · have hqne : q ≠ [] := fun he => hpaths (he ▸ hq)
    exact ⟨⟨q, hq, hqp⟩, (d.get?_extract_of_prefix hq hqne hqp).symm.trans hj⟩
  · simp [hleaf] at hobj

/-- A section with an empty one in it, and a scalar in the place of another section. -/
def halfConfigured : Document :=
  ofFields
    [("servingInfo", .str "none"),
     ("storageConfig", .obj [("options", .obj []), ("urls", Json.strings ["https://10.0.0.1:2379"])])]

/-- A path and one above it, a path behind a scalar, and one that leads nowhere. -/
def entangledPaths : List Path :=
  [["storageConfig", "urls"], ["storageConfig"], ["servingInfo", "bindAddress"], ["storageConfig", "urls"], ["missing"]]

theorem extract_is_restriction_entangled :
    [] ∉ entangledPaths ∧
    halfConfigured.extract entangledPaths.reverse = halfConfigured.extract entangledPaths ∧
    halfConfigured.merge (halfConfigured.extract entangledPaths) = halfConfigured ∧
    (halfConfigured.extract entangledPaths).get? ["storageConfig", "options"] = some (.obj []) ∧
    (halfConfigured.extract entangledPaths).get? ["servingInfo"] = none := by
  have hpaths : [] ∉ entangledPaths := by decide
  obtain ⟨hvalues, hleaves, horder, hmerge, -⟩ := extract_is_restriction halfConfigured entangledPaths hpaths
  refine ⟨hpaths, horder _ fun p => List.mem_reverse, hmerge, ?_, ?_⟩
  · have hsection := hvalues ["storageConfig"] (by decide)
    rw [← (by decide +kernel : halfConfigured.get? ["storageConfig", "options"] = some (.obj []))]
    exact Fields.get?_congr_of_prefix hsection (by decide) (by decide)
  · decide +kernel

end Document

end RolloutControl
