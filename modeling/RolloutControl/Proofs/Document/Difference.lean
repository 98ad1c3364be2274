import RolloutControl.Document.Diff
import RolloutControl.Error
import RolloutControl.Proofs.Document.Lens
import RolloutControl.Proofs.Document.Merge
/-! Differences of documents. What is listed are the places where two documents go apart, so two documents without any
are the same, and it does not matter which one comes first. -/

namespace RolloutControl

namespace Fields

open Json

/-- Two objects go apart at a path: both hold objects all the way to it, and there they hold values that are not the
same, one of which may be missing and one of which is no object. -/
structure DiffersAt (f g : Fields) (p : Path) : Prop where
  values : (f.get? p).map unsignedZeros ≠ (g.get? p).map unsignedZeros
  leaf : ¬((∃ a, f.get? p = some (.obj a)) ∧ ∃ b, g.get? p = some (.obj b))
  parents : ∀ q, q ≠ [] → q <+: p → q ≠ p → (∃ a, f.get? q = some (.obj a)) ∧ ∃ b, g.get? q = some (.obj b)

variable {f g : Fields} {k name outer : String} {p : Path}

theorem DiffersAt.symm (h : f.DiffersAt g p) : g.DiffersAt f p where
  values := h.values.symm
  leaf := fun hboth => h.leaf hboth.symm
  parents := fun q hq hqp hne => (h.parents q hq hqp hne).symm

theorem DiffersAt.ne_nil (h : f.DiffersAt g p) : p ≠ [] := by
  rintro rfl
  exact h.values rfl

theorem differsAt_singleton :
    f.DiffersAt g [k] ↔
      (Assoc.lookup k f).map unsignedZeros ≠ (Assoc.lookup k g).map unsignedZeros ∧
      ¬((∃ a, Assoc.lookup k f = some (.obj a)) ∧ ∃ b, Assoc.lookup k g = some (.obj b)) := by
  constructor
  · exact fun h => ⟨h.values, h.leaf⟩
  · rintro ⟨hvalues, hleaf⟩
    refine ⟨hvalues, hleaf, fun q hq hqk hne => absurd ?_ hne⟩
    cases q with
    | nil => exact absurd rfl hq
    | cons l q =>
      obtain ⟨rfl, hnil⟩ := List.cons_prefix_cons.1 hqk
      rw [List.prefix_nil.1 hnil]

theorem differsAt_cons (hp : p ≠ []) :
    f.DiffersAt g (k :: p) ↔
      ∃ a b, Assoc.lookup k f = some (.obj a) ∧ Assoc.lookup k g = some (.obj b) ∧ DiffersAt a b p := by
  constructor
  · intro h
    obtain ⟨⟨a, ha⟩, ⟨b, hb⟩⟩ :=
      h.parents [k] (List.cons_ne_nil k []) (List.prefix_append [k] p) (by simpa using hp.symm)
    refine ⟨a, b, ha, hb, ?_, ?_, fun q hq hqp hne => ?_⟩
    · have hvalues := h.values
      rwa [get?_cons_of_obj ha hp, get?_cons_of_obj hb hp] at hvalues
    · have hleaf := h.leaf
      rwa [get?_cons_of_obj ha hp, get?_cons_of_obj hb hp] at hleaf
    · have hparents := h.parents (k :: q) (List.cons_ne_nil k q) (List.cons_prefix_cons.2 ⟨rfl, hqp⟩)
        (by simpa using hne)
      rwa [get?_cons_of_obj ha hq, get?_cons_of_obj hb hq] at hparents
  · rintro ⟨a, b, ha, hb, h⟩
    refine ⟨?_, ?_, fun q hq hqp hne => ?_⟩
    · rw [get?_cons_of_obj ha hp, get?_cons_of_obj hb hp]
      exact h.values
    · rw [get?_cons_of_obj ha hp, get?_cons_of_obj hb hp]
      exact h.leaf
    · cases q with
      | nil => exact absurd rfl hq
      | cons l q =>
        obtain ⟨rfl, hrest⟩ := List.cons_prefix_cons.1 hqp
        by_cases hnil : q = []
        · subst hnil
          exact ⟨⟨a, ha⟩, b, hb⟩
        · rw [get?_cons_of_obj ha hnil, get?_cons_of_obj hb hnil]
          exact h.parents q hnil hrest fun he => hne (congrArg _ he)

theorem any_same {x : Json} {y : Option Json} :
    y.any x.same = true ↔ some x.unsignedZeros = y.map unsignedZeros := by
  cases y <;> simp [same]

theorem mem_diffValue {x : Json} {y : Option Json} :
    name ∈ diffValue outer x y ↔
      (∃ a b, x = .obj a ∧ y = some (.obj b) ∧ name ∈ diff outer a b) ∨
      name = outer ∧ some x.unsignedZeros ≠ y.map unsignedZeros ∧
        ¬((∃ a, x = .obj a) ∧ ∃ b, y = some (.obj b)) := by
  unfold diffValue
  split
  · next a b => simp
  · next hother =>
    have hleaf : ¬((∃ a, x = .obj a) ∧ ∃ b, y = some (.obj b)) := by
      rintro ⟨⟨a, ha⟩, b, hb⟩
      exact hother a b ha hb
    have hnone : ¬∃ a b, x = .obj a ∧ y = some (.obj b) ∧ name ∈ diff outer a b := by
      rintro ⟨a, b, ha, hb, -⟩
      exact hother a b ha hb
    simp only [hnone, hleaf, not_false_eq_true, and_true, false_or, ne_eq, ← any_same]
    split
    · next hsame => simp [hsame]
    · next hdiffers => simp [hdiffers]

theorem mem_diffKnown {l : List (String × Json)} :
    name ∈ diffKnown outer l g ↔ ∃ e ∈ l, name ∈ diffValue (dotted outer e.1) e.2 (Assoc.lookup e.1 g) := by
  induction l with
  | nil => simp [diffKnown]
  | cons e r ih =>
    obtain ⟨k, x⟩ := e
    simp [diffKnown, ih]

theorem mem_diff (hf : Assoc.Ascending f) (hg : Assoc.Ascending g) :
    name ∈ diff outer f g ↔
      ∃ k, name = dotted outer k ∧ f.DiffersAt g [k] ∨
        ∃ a b, Assoc.lookup k f = some (.obj a) ∧ Assoc.lookup k g = some (.obj b) ∧
          name ∈ diff (dotted outer k) a b := by
  rw [diff, List.mem_append, mem_diffKnown, List.mem_map]
  -- the keys of the first object are gone through, and then those that only the second one has
  constructor
  · rintro (⟨⟨k, x⟩, he, hname⟩ | ⟨⟨k, y⟩, he, rfl⟩)
    · have hx : Assoc.lookup k f = some x := Assoc.lookup_of_mem hf he
      rcases mem_diffValue.1 hname with ⟨a, b, rfl, hb, hin⟩ | ⟨rfl, hvalues, hleaf⟩
      · exact ⟨k, .inr ⟨a, b, hx, hb, hin⟩⟩
      · refine ⟨k, .inl ⟨rfl, differsAt_singleton.2 ?_⟩⟩
        rw [hx]
        simpa using And.intro hvalues hleaf
    · obtain ⟨hmem, hnew⟩ := List.mem_filter.1 he
      have hx : Assoc.lookup k f = none := by simpa using hnew
      have hy : Assoc.lookup k g = some y := Assoc.lookup_of_mem hg hmem
      refine ⟨k, .inl ⟨rfl, differsAt_singleton.2 ?_⟩⟩
      simp [hx, hy]
  · rintro ⟨k, ⟨rfl, hdiffers⟩ | ⟨a, b, ha, hb, hin⟩⟩
    · obtain ⟨hvalues, hleaf⟩ := differsAt_singleton.1 hdiffers
      cases hx : Assoc.lookup k f with
      | some x =>
        rw [hx] at hvalues hleaf
        refine .inl ⟨(k, x), Assoc.mem_of_lookup hx, mem_diffValue.2 (.inr ⟨rfl, hvalues, ?_⟩)⟩
        simpa using hleaf
      | none =>
        obtain ⟨y, hy⟩ : ∃ y, Assoc.lookup k g = some y := by
          rw [← Option.ne_none_iff_exists']
          intro hnone
          exact hvalues (by rw [hx, hnone])
        exact .inr ⟨(k, y), List.mem_filter.2 ⟨Assoc.mem_of_lookup hy, by simp [hx]⟩, rfl⟩
    · exact .inl ⟨(k, .obj a), Assoc.mem_of_lookup ha, mem_diffValue.2 (.inl ⟨a, b, rfl, hb, hin⟩)⟩

/-- The places where two objects go apart are listed, each by its keys behind the outer name. -/
theorem mem_diff_iff {f g : Fields} {name outer : String} (hf : f.Canonical) (hg : g.Canonical) :
    name ∈ diff outer f g ↔ ∃ p, f.DiffersAt g p ∧ name = p.foldl dotted outer := by
  induction f using inner_induction generalizing g outer with
  | step f ih =>
    rw [mem_diff hf.1 hg.1]
    constructor
    · rintro ⟨k, ⟨rfl, hdiffers⟩ | ⟨a, b, ha, hb, hin⟩⟩
      · exact ⟨[k], hdiffers, rfl⟩
      · obtain ⟨p, hp, rfl⟩ := (ih k a ha (hf.lookup ha) (hg.lookup hb)).1 hin
        exact ⟨k :: p, (differsAt_cons hp.ne_nil).2 ⟨a, b, ha, hb, hp⟩, rfl⟩
    · rintro ⟨p, hp, rfl⟩
      cases p with
      | nil => exact absurd rfl hp.ne_nil
      | cons k p =>
        refine ⟨k, ?_⟩
        by_cases hnil : p = []
        · subst hnil
          exact .inl ⟨rfl, hp⟩
        · obtain ⟨a, b, ha, hb, hinner⟩ := (differsAt_cons hnil).1 hp
          exact .inr ⟨a, b, ha, hb, (ih k a ha (hf.lookup ha) (hg.lookup hb)).2 ⟨p, hinner, rfl⟩⟩

theorem unsignedZerosFields_eq_map (f : Fields) :
    unsignedZerosFields f = f.map fun e => (e.1, e.2.unsignedZeros) := by
  induction f with
  | nil => rfl
  | cons e r ih =>
    obtain ⟨k, x⟩ := e
    rw [unsignedZerosFields, ih, List.map_cons]

theorem ascending_unsignedZeros (h : Assoc.Ascending f) : Assoc.Ascending (unsignedZerosFields f) := by
  rw [unsignedZerosFields_eq_map, Assoc.Ascending, List.pairwise_map]
  exact h

/-- Objects that nowhere go apart are the same. -/
theorem unsignedZeros_eq_of_not_differsAt {f g : Fields} (hf : f.Canonical) (hg : g.Canonical)
    (h : ∀ p, ¬f.DiffersAt g p) : unsignedZerosFields f = unsignedZerosFields g := by
  induction f using inner_induction generalizing g with
  | step f ih =>
    refine Assoc.ext_lookup (ascending_unsignedZeros hf.1) (ascending_unsignedZeros hg.1) fun k => ?_
    rw [lookup_unsignedZeros, lookup_unsignedZeros]
    by_contra hvalues
    have hboth : (∃ a, Assoc.lookup k f = some (.obj a)) ∧ ∃ b, Assoc.lookup k g = some (.obj b) := by
      by_contra hleaf
      exact h [k] (differsAt_singleton.2 ⟨hvalues, hleaf⟩)
    obtain ⟨⟨a, ha⟩, b, hb⟩ := hboth
    have hinner : unsignedZerosFields a = unsignedZerosFields b :=
      ih k a ha (hf.lookup ha) (hg.lookup hb) fun p hp =>
        h (k :: p) ((differsAt_cons hp.ne_nil).2 ⟨a, b, ha, hb, hp⟩)
    rw [ha, hb] at hvalues
    exact hvalues (by simp [unsignedZeros, hinner])

end Fields

theorem dotted_of_ne_empty {outer : String} (h : outer ≠ "") (key : String) :
    dotted outer key = outer ++ "." ++ key := if_neg h

theorem foldl_dotted (outer : String) (h : outer ≠ "") (p : Path) : p.foldl dotted outer = Path.text (outer :: p) := by
  induction p generalizing outer with
  | nil => rfl
  | cons k p ih =>
    have hne : outer ++ "." ++ k ≠ "" := by simp
    rw [List.foldl_cons, dotted_of_ne_empty h, ih _ hne]
    rfl

theorem foldl_dotted_empty {p : Path} (h : "" ∉ p) : p.foldl dotted "" = p.text := by
  cases p with
  | nil => rfl
  | cons k p =>
    have hk : k ≠ "" := fun he => h (by simp [he])
    rw [List.foldl_cons, dotted, if_pos rfl, foldl_dotted k hk]

namespace Json

mutual

/-- No key of an object is empty, nor is one of an object under its keys. -/
def keysNamed : Json → Bool
  | .obj fields => keysNamedFields fields
  | _ => true

def keysNamedFields : List (String × Json) → Bool
  | [] => true
  | (k, x) :: r => k ≠ "" && x.keysNamed && keysNamedFields r

end

theorem keysNamedFields_iff {f : Fields} : keysNamedFields f = true ↔ ∀ e ∈ f, e.1 ≠ "" ∧ e.2.keysNamed = true := by
  induction f with
  | nil => simp [keysNamedFields]
  | cons e r ih =>
    obtain ⟨k, x⟩ := e
    simp [keysNamedFields, ih]

end Json

theorem Fields.notMem_of_keysNamed {f : Fields} {p : Path} {j : Json} (h : Json.keysNamedFields f = true)
    (hp : f.get? p = some j) : "" ∉ p := by
  induction p generalizing f with
  | nil => simp
  | cons k p ih =>
    by_cases hnil : p = []
    · subst hnil
      have hk : k ≠ "" := (Json.keysNamedFields_iff.1 h _ (Assoc.mem_of_lookup hp)).1
      simpa using hk.symm
    · obtain ⟨inner, hk, hinner⟩ := exists_obj_of_get? hnil hp
      obtain ⟨hne, hnamed⟩ := Json.keysNamedFields_iff.1 h _ (Assoc.mem_of_lookup hk)
      have hrest : "" ∉ p := ih (by simpa [Json.keysNamed] using hnamed) hinner
      simpa [hrest] using hne.symm

namespace Document

variable {d e : Document}

def DiffersAt (d e : Document) (p : Path) : Prop := d.fields.DiffersAt e.fields p

/-- Behind an empty key nothing tells where a name begins. -/
def KeysNamed (d : Document) : Prop := Json.keysNamedFields d.fields = true

instance (d : Document) : Decidable d.KeysNamed := inferInstanceAs (Decidable (_ = true))

theorem mem_diff {name : String} : name ∈ d.diff e ↔ ∃ p, d.DiffersAt e p ∧ name = p.foldl dotted "" := by
  rw [diff, mem_ascending]
  exact Fields.mem_diff_iff d.canonical e.canonical

theorem DiffersAt.notMem (h : d.DiffersAt e p) (hd : d.KeysNamed) (he : e.KeysNamed) : "" ∉ p := by
  cases hx : d.fields.get? p with
  | some x => exact Fields.notMem_of_keysNamed hd hx
  | none =>
    cases hy : e.fields.get? p with
    | some y => exact Fields.notMem_of_keysNamed he hy
    | none => exact absurd (by rw [hx, hy]) h.values

theorem same_iff_not_differsAt : d.same e = true ↔ ∀ p, ¬d.DiffersAt e p := by
  constructor
  · intro h p hp
    exact hp.values (get?_of_same h p)
  · intro h
    have hfields := Fields.unsignedZeros_eq_of_not_differsAt d.canonical e.canonical h
    simp [same, Json.same, toJson, Json.unsignedZeros, hfields]

theorem diff_eq_nil_iff : d.diff e = [] ↔ d.same e = true := by
  rw [same_iff_not_differsAt, List.eq_nil_iff_forall_not_mem]
  constructor
  · exact fun h p hp => h _ (mem_diff.2 ⟨p, hp, rfl⟩)
  · intro h name hname
    obtain ⟨p, hp, -⟩ := mem_diff.1 hname
    exact h p hp

theorem diff_comm (d e : Document) : d.diff e = e.diff d := by
  refine ascending_congr fun name => ?_
  rw [Fields.mem_diff_iff d.canonical e.canonical, Fields.mem_diff_iff e.canonical d.canonical]
  exact exists_congr fun p => and_congr_left' ⟨Fields.DiffersAt.symm, Fields.DiffersAt.symm⟩

/-- Documents without a difference are the same, and documents that are not are told apart by the names of all places
where they go apart, in ascending order, whichever of the two comes first. -/
theorem diff_tells_apart (d e : Document) :
    (d.diff e = [] ↔ d.same e = true) ∧ d.diff e = e.diff d ∧ (d.diff e).Pairwise (· < ·) ∧
    (d.KeysNamed → e.KeysNamed → ∀ name, name ∈ d.diff e ↔ ∃ p, d.DiffersAt e p ∧ name = Path.text p) := by
  refine ⟨diff_eq_nil_iff, diff_comm d e, pairwise_ascending _, fun hd he name => ?_⟩
  rw [mem_diff]
  exact exists_congr fun p => and_congr_right fun hp => by rw [foldl_dotted_empty (hp.notMem hd he)]

def configured : Document :=
  ofFields
    [("servingInfo", .obj [("bindAddress", .str "0.0.0.0:8443"), ("certFile", .str "/etc/tls.crt")]),
     ("storageConfig", .str "none")]

def reconfigured : Document :=
  ofFields
    [("servingInfo", .obj [("bindAddress", .str "[::]:8443"), ("certFile", .str "/etc/tls.crt")]),
     ("storageConfig", .obj [])]

theorem diff_tells_apart_reconfigured :
    configured.KeysNamed ∧ reconfigured.KeysNamed ∧
    configured.diff reconfigured = ["servingInfo.bindAddress", "storageConfig"] ∧
    (∃ p, configured.DiffersAt reconfigured p ∧ "servingInfo.bindAddress" = Path.text p) ∧
    ¬∃ p, configured.DiffersAt reconfigured p ∧ "servingInfo" = Path.text p := by
  have hnamed : configured.KeysNamed := by decide +kernel
  have hnamed' : reconfigured.KeysNamed := by decide +kernel
  have hdiff : configured.diff reconfigured = ["servingInfo.bindAddress", "storageConfig"] := by
    have hplain : configured.fields =
        [("servingInfo", .obj [("bindAddress", .str "0.0.0.0:8443"), ("certFile", .str "/etc/tls.crt")]),
         ("storageConfig", .str "none")] := rfl
    have hplain' : reconfigured.fields =
        [("servingInfo", .obj [("bindAddress", .str "[::]:8443"), ("certFile", .str "/etc/tls.crt")]),
         ("storageConfig", .obj [])] := rfl
    have hlisted : Fields.diff "" configured.fields reconfigured.fields =
        ["servingInfo.bindAddress", "storageConfig"] := by
      rw [hplain, hplain']
      simp [Fields.diff, Fields.diffKnown, Fields.diffValue, Json.same, Json.unsignedZeros, Assoc.lookup, dotted]
    rw [diff, hlisted]
    rfl
  obtain ⟨-, -, -, hplaces⟩ := diff_tells_apart configured reconfigured
  refine ⟨hnamed, hnamed', hdiff, (hplaces hnamed hnamed' _).1 ?_, mt (hplaces hnamed hnamed' _).2 ?_⟩ <;>
    simp [hdiff]

end Document

end RolloutControl
