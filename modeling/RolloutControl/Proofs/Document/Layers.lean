import RolloutControl.Proofs.Document.Merge
import RolloutControl.Workload.Operand
/-! Documents in layers. What is seen at a path of a merged document follows from what the two documents hold there,
and from what the upper one holds on the way. A layer that lies on top of itself is not seen twice. -/

namespace RolloutControl

namespace Fields

open Json

theorem isObj_of_blocks_eq_false {fs : Fields} {p q : Path} (h : fs.blocks p = false) (hqp : q <+: p) (hne : q ≠ p)
    {j : Json} (hj : fs.get? q = some j) : j.isObj := by
  induction p generalizing fs q with
  | nil => exact absurd (List.prefix_nil.1 hqp) hne
  | cons k p ih =>
    cases q with
    | nil => simp at hj
    | cons l q =>
      obtain ⟨rfl, hrest⟩ := List.cons_prefix_cons.1 hqp
      have hproper : q ≠ p := fun he => hne (congrArg _ he)
      have hp : p ≠ [] := fun he => hproper ((List.prefix_nil.1 (he ▸ hrest)).trans he.symm)
      rw [blocks_cons fs l hp] at h
      cases hl : Assoc.lookup l fs with
      | none =>
        have hnone : fs.get? (l :: q) = none := by
          by_cases hq : q = []
          · subst hq
            exact hl
          · rw [get?_cons fs l hq, hl, ofValue?_none, get?_empty]
        rw [hnone] at hj
        cases hj
      | some x =>
        cases x with
        | obj inner =>
          by_cases hq : q = []
          · subst hq
            obtain rfl : Json.obj inner = j := Option.some.inj (hl.symm.trans hj)
            rfl
          · rw [get?_cons fs l hq, hl] at hj
            simp only [hl] at h
            exact ih h hrest hproper hj
        | _ => simp [hl] at h

theorem merge_merge_self (fs new : Fields) (hfs : fs.Canonical) (hnew : new.Canonical) :
    merge (merge fs new) new = merge fs new := by
  induction new using inner_induction generalizing fs with
  | step new ih =>
    have honce : Canonical (merge fs new) := canonical_merge hfs new hnew.2
    refine Assoc.ext_lookup (canonical_merge honce new hnew.2).1 honce.1 fun k => ?_
    rw [lookup_merge _ hnew.1, lookup_merge fs hnew.1]
    cases hk : Assoc.lookup k new with
    | none => rfl
    | some j =>
      cases j with
      | obj inner =>
        have hinner := ih k inner hk (ofValue? (Assoc.lookup k fs)) (hfs.ofValue? k) (hnew.lookup hk)
        simp only [mergeValue, ofValue?_obj, hinner]
      | _ => rfl

end Fields

namespace Document

open Json

variable {d e : Document} {p : Path}

/-- A value that is no object stands on the way to the path. -/
def Hides (d : Document) (p : Path) : Prop :=
  ∃ q j, q <+: p ∧ q ≠ p ∧ d.get? q = some j ∧ j.isObj = false

theorem hides_iff : d.Hides p ↔ d.fields.blocks p = true := by
  constructor
  · rintro ⟨q, j, hqp, hne, hj, hobj⟩
    by_contra hclear
    have hisObj := Fields.isObj_of_blocks_eq_false (Bool.eq_false_iff.2 hclear) hqp hne hj
    rw [hobj] at hisObj
    cases hisObj
  · intro hblocks
    by_contra hclear
    have hfree : d.fields.blocks p = false := Fields.blocks_eq_false fun q j hqp hne hj => by
      by_contra hobj
      exact hclear ⟨q, j, hqp, hne, hj, Bool.eq_false_iff.2 hobj⟩
    rw [hfree] at hblocks
    cases hblocks

instance (d : Document) (p : Path) : Decidable (d.Hides p) := decidable_of_iff _ hides_iff.symm

/-- What is seen at a path when the document lies over something else that has the second value there: objects are
merged, everything else is covered by what the document has, and by what it has on the way. -/
def overlay (d : Document) (p : Path) (below : Option Json) : Option Json :=
  match d.get? p, below with
  | some (.obj new), some (.obj old) => some (.obj (Fields.merge old new))
  | some j, _ => some j
  | none, _ => if d.Hides p then none else below

theorem get?_merge_eq_overlay (d e : Document) (p : Path) : (d.merge e).get? p = e.overlay p (d.get? p) := by
  rw [get?_merge]
  unfold overlay
  cases he : e.get? p with
  | none => simp only [hides_iff]
  | some j =>
    cases j with
    | obj new =>
      have hnew : Fields.merge [] new = new := Fields.merge_nil new (e.canonical.get? he)
      rcases hd : d.get? p with _ | _ | _ | _ | _ | _ | _ | old <;>
        simp [Fields.mergeValue, Fields.ofValue?, hnew]
    | _ => rfl

theorem merge_merge_self (d e : Document) : (d.merge e).merge e = d.merge e :=
  ext (Fields.merge_merge_self d.fields e.fields d.canonical e.canonical)

theorem empty_merge (d : Document) : (∅ : Document).merge d = d :=
  ext (Fields.merge_nil d.fields d.canonical)

theorem merge_self (d : Document) : d.merge d = d := by
  have h := merge_merge_self ∅ d
  rwa [empty_merge] at h

/-- The configuration of the operand in its layers. -/
theorem get?_render {spec : OperatorSpec} {observed overrides : Document}
    (hobserved : ofJson? spec.observedConfig = some observed) (hoverrides : ofJson? spec.overrides = some overrides) :
    ∃ rendered, Operand.render spec = .ok rendered ∧
      ∀ p, rendered.get? p = overrides.overlay p (observed.overlay p (Operand.defaults.get? p)) := by
  refine ⟨(Operand.defaults.merge observed).merge overrides, ?_, fun p => ?_⟩
  · simp [Operand.render, ofJson, hobserved, hoverrides, bind, Except.bind]
  · rw [get?_merge_eq_overlay, get?_merge_eq_overlay]

/-- Merged documents path by path: the second one lies over the first one, however often it is merged in, and every
document may be merged into itself. The operand is told the overrides over what is observed over the defaults. -/
theorem merged_path_by_path (d e : Document) :
    (∀ p, (d.merge e).get? p = e.overlay p (d.get? p)) ∧
    d.merge d = d ∧ (d.merge e).merge e = d.merge e ∧
    ∀ (spec : OperatorSpec) (observed overrides : Document), ofJson? spec.observedConfig = some observed →
      ofJson? spec.overrides = some overrides → ∃ rendered, Operand.render spec = .ok rendered ∧
        ∀ p, rendered.get? p = overrides.overlay p (observed.overlay p (Operand.defaults.get? p)) :=
  ⟨d.get?_merge_eq_overlay e, d.merge_self, d.merge_merge_self e, fun _ _ _ => get?_render⟩

def observedLayer : Document :=
  ofFields [("servingInfo", .obj [("bindAddress", .str "10.0.0.1:8443"), ("certFile", .str "/etc/tls.crt")])]

def overridesLayer : Document :=
  ofFields [("servingInfo", .obj [("bindAddress", .str "[::]:8443")]), ("storageConfig", .str "none")]

def layered : OperatorSpec where
  observedConfig := observedLayer.toJson
  overrides := overridesLayer.toJson

/-- The address is overridden, the certificate is the observed one, and nothing is seen of the defaults for the
storage. -/
theorem merged_path_by_path_layers :
    ofJson? layered.observedConfig = some observedLayer ∧ ofJson? layered.overrides = some overridesLayer ∧
    ∃ rendered, Operand.render layered = .ok rendered ∧
      rendered.get? ["servingInfo", "bindAddress"] = some (.str "[::]:8443") ∧
      rendered.get? ["servingInfo", "certFile"] = some (.str "/etc/tls.crt") ∧
      rendered.get? ["storageConfig", "ca"] = none := by
  have hobserved : ofJson? layered.observedConfig = some observedLayer := ofJson?_toJson observedLayer
  have hoverrides : ofJson? layered.overrides = some overridesLayer := ofJson?_toJson overridesLayer
  obtain ⟨-, -, -, hrender⟩ := merged_path_by_path observedLayer overridesLayer
  obtain ⟨rendered, hok, hpaths⟩ := hrender layered _ _ hobserved hoverrides
  refine ⟨hobserved, hoverrides, rendered, hok, ?_⟩
  rw [hpaths, hpaths, hpaths]
  decide +kernel

end Document

end RolloutControl
