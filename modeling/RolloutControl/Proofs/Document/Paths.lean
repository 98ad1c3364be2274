import Mathlib.Data.List.Basic
import RolloutControl.Document.Basic
/-! What a document holds at a path. Writing at one path is seen there, leaves objects on the way to it,
and is not seen at any path that lies apart from it. A document that is put together from values at some
paths holds nothing else. -/

namespace RolloutControl

/-- Neither of two paths leads to the other. -/
def Path.Apart (p q : Path) : Prop := ¬p <+: q ∧ ¬q <+: p

instance (p q : Path) : Decidable (p.Apart q) := inferInstanceAs (Decidable (¬p <+: q ∧ ¬q <+: p))

theorem Path.Apart.symm {p q : Path} (h : p.Apart q) : q.Apart p := ⟨h.2, h.1⟩

theorem Path.apart_cons {k : String} {p q : Path} : Path.Apart (k :: p) (k :: q) ↔ p.Apart q := by
  simp [Path.Apart]

theorem Path.Apart.of_prefix {p q r : Path} (h : p.Apart q) (hr : q <+: r) : p.Apart r := by
  refine ⟨fun hpr => ?_, fun hrp => h.2 (hr.trans hrp)⟩
  rcases List.prefix_or_prefix_of_prefix hpr hr with hpq | hqp
  · exact h.1 hpq
  · exact h.2 hqp

theorem Json.isObj_iff {j : Json} : j.isObj ↔ ∃ fs, j = .obj fs := by
  rw [isObj, Option.isSome_iff_exists]
  exact exists_congr fun _ => obj?_eq_some

namespace Fields

open Json

@[simp] theorem ofValue?_none : ofValue? none = [] := rfl

@[simp] theorem ofValue?_obj (fs : Fields) : ofValue? (some (.obj fs)) = fs := rfl

@[simp] theorem get?_nil (fs : Fields) : fs.get? [] = none := rfl

@[simp] theorem get?_singleton (fs : Fields) (k : String) : fs.get? [k] = Assoc.lookup k fs := rfl

theorem get?_cons (fs : Fields) (k : String) {p : Path} (hp : p ≠ []) :
    fs.get? (k :: p) = (ofValue? (Assoc.lookup k fs)).get? p := by
  cases p with
  | nil => exact absurd rfl hp
  | cons l p => rfl

theorem get?_cons_of_obj {fs inner : Fields} {k : String} {p : Path} (hk : Assoc.lookup k fs = some (.obj inner))
    (hp : p ≠ []) : fs.get? (k :: p) = inner.get? p := by
  rw [get?_cons fs k hp, hk, ofValue?_obj]

theorem ne_nil_of_get? {fs : Fields} {p : Path} {j : Json} (h : fs.get? p = some j) : p ≠ [] := by
  rintro rfl
  simp at h

theorem set_cons (fs : Fields) (k : String) {p : Path} (hp : p ≠ []) (j : Json) :
    fs.set (k :: p) j = Assoc.insert k (.obj ((ofValue? (Assoc.lookup k fs)).set p j)) fs := by
  cases p with
  | nil => exact absurd rfl hp
  | cons l p => rfl

@[simp] theorem get?_empty (p : Path) : get? [] p = none := by
  induction p with
  | nil => rfl
  | cons k p ih =>
    cases p with
    | nil => rfl
    | cons l p => exact ih

theorem get?_set_self (fs : Fields) {p : Path} (hp : p ≠ []) (j : Json) : (fs.set p j).get? p = some j := by
  induction p generalizing fs with
  | nil => exact absurd rfl hp
  | cons k p ih =>
    cases p with
    | nil => simp [set]
    | cons l p =>
      have hne : l :: p ≠ [] := List.cons_ne_nil l p
      rw [set_cons fs k hne, get?_cons _ k hne, Assoc.lookup_insert, if_pos rfl, ofValue?_obj]
      exact ih _ hne

theorem get?_congr {fs gs : Fields} {k : String} (h : Assoc.lookup k fs = Assoc.lookup k gs) (p : Path) :
    fs.get? (k :: p) = gs.get? (k :: p) := by
  by_cases hp : p = []
  · subst hp
    exact h
  · rw [get?_cons fs k hp, get?_cons gs k hp, h]

/-- A change that goes down one path, key by key, is not seen at paths that lie apart from it. -/
theorem get?_of_apart (edit : Fields → Path → Fields)
    (hother : ∀ fs k p l, l ≠ k → Assoc.lookup l (edit fs (k :: p)) = Assoc.lookup l fs)
    (hinner : ∀ fs k p, p ≠ [] →
      ofValue? (Assoc.lookup k (edit fs (k :: p))) = edit (ofValue? (Assoc.lookup k fs)) p)
    (fs : Fields) {p q : Path} (h : p.Apart q) : (edit fs p).get? q = fs.get? q := by
  induction p generalizing fs q with
  | nil => exact absurd List.nil_prefix h.1
  | cons k p ih =>
    cases q with
    | nil => exact absurd List.nil_prefix h.2
    | cons l q =>
      by_cases hk : l = k
      · subst hk
        have hpq : Path.Apart p q := Path.apart_cons.1 h
        have hp : p ≠ [] := fun he => hpq.1 (he ▸ List.nil_prefix)
        have hq : q ≠ [] := fun he => hpq.2 (he ▸ List.nil_prefix)
        rw [get?_cons _ l hq, hinner fs l p hp, get?_cons fs l hq]
        exact ih _ hpq
      · exact get?_congr (hother fs k p l hk) q

theorem get?_set_of_apart (fs : Fields) {p q : Path} (h : p.Apart q) (j : Json) :
    (fs.set p j).get? q = fs.get? q := by
  refine get?_of_apart (fun fs p => fs.set p j) (fun fs k p l hl => ?_) (fun fs k p hp => ?_) fs h
  · cases p <;> simp [set, hl]
  · rw [set_cons fs k hp, Assoc.lookup_insert, if_pos rfl, ofValue?_obj]

theorem isObj_get?_set (fs : Fields) {p q : Path} (hq : q ≠ []) (hqp : q <+: p) (hne : q ≠ p) (j : Json) :
    ∃ inner, (fs.set p j).get? q = some (.obj inner) := by
  induction p generalizing fs q with
  | nil => exact absurd (List.prefix_nil.1 hqp) hq
  | cons k p ih =>
    cases q with
    | nil => exact absurd rfl hq
    | cons l q =>
      obtain ⟨rfl, hrest⟩ := List.cons_prefix_cons.1 hqp
      have hproper : q ≠ p := fun he => hne (congrArg _ he)
      have hp : p ≠ [] := fun he => hproper ((List.prefix_nil.1 (he ▸ hrest)).trans he.symm)
      rw [set_cons fs l hp]
      cases q with
      | nil => exact ⟨_, (Assoc.lookup_insert l l _ fs).trans (if_pos rfl)⟩
      | cons m q =>
        rw [get?_cons _ l (List.cons_ne_nil m q), Assoc.lookup_insert, if_pos rfl, ofValue?_obj]
        exact ih _ (List.cons_ne_nil m q) hrest hproper

theorem lookup_unsignedZeros (fs : Fields) (k : String) :
    Assoc.lookup k (unsignedZerosFields fs) = (Assoc.lookup k fs).map unsignedZeros := by
  induction fs with
  | nil => rfl
  | cons e r ih =>
    obtain ⟨l, j⟩ := e
    rw [unsignedZerosFields, Assoc.lookup_cons, Assoc.lookup_cons, ih]
    by_cases hk : k = l <;> simp [hk]

theorem ofValue?_unsignedZeros (j : Option Json) :
    ofValue? (j.map unsignedZeros) = unsignedZerosFields (ofValue? j) := by
  rcases j with _ | _ | _ | _ | _ | _ | _ | _ <;> rfl

theorem get?_unsignedZeros (fs : Fields) (p : Path) :
    get? (unsignedZerosFields fs) p = (fs.get? p).map unsignedZeros := by
  induction p generalizing fs with
  | nil => rfl
  | cons k p ih =>
    by_cases hp : p = []
    · subst hp
      exact lookup_unsignedZeros fs k
    · rw [get?_cons _ k hp, get?_cons fs k hp, lookup_unsignedZeros, ofValue?_unsignedZeros, ih]

end Fields

namespace Document

variable {d out : Document} {p q : Path}

@[ext] theorem ext {d e : Document} (h : d.fields = e.fields) : d = e := by
  obtain ⟨f, _⟩ := d
  obtain ⟨g, _⟩ := e
  obtain rfl : f = g := h
  rfl

@[simp] theorem get?_empty (p : Path) : (∅ : Document).get? p = none := Fields.get?_empty p

/-- A document that holds something is not empty. -/
theorem isEmpty_of_isSome_get? {d : Document} {p : Path} (h : (d.get? p).isSome) : d.isEmpty = false := by
  cases hempty : d.isEmpty with
  | false => rfl
  | true =>
    have hfields : d.fields = [] := List.isEmpty_iff.1 hempty
    rw [get?, hfields, Fields.get?_empty] at h
    exact absurd h Bool.false_ne_true

@[simp] theorem get?_nil (d : Document) : d.get? [] = none := rfl

theorem ne_nil_of_get? {j : Json} (h : d.get? p = some j) : p ≠ [] := Fields.ne_nil_of_get? h

theorem get?_set_self (d : Document) (hp : p ≠ []) (j : Json) : (d.set p j).get? p = some j.normalize :=
  Fields.get?_set_self d.fields hp _

theorem get?_set_of_apart (d : Document) (h : p.Apart q) (j : Json) : (d.set p j).get? q = d.get? q :=
  Fields.get?_set_of_apart d.fields h _

theorem normalize_of_get? {j : Json} (h : d.get? p = some j) : j.normalize = j :=
  Json.normalize_of_canonical j (d.canonical.get? h)

@[simp] theorem ofJson?_toJson (d : Document) : ofJson? d.toJson = some d := by
  refine congrArg some (ext ?_)
  change Assoc.ofList (Json.normalizeFields d.fields) = d.fields
  rw [Json.normalizeFields_of_canonical d.fields d.canonical.2, Assoc.ofList_of_ascending d.canonical.1]

/-- Nothing is held but values at or below these paths and objects on the way to them. -/
def ConfinedTo (d : Document) (paths : List Path) : Prop :=
  ∀ p j, d.get? p = some j → (∃ q ∈ paths, q <+: p) ∨ j.isObj ∧ ∃ q ∈ paths, p <+: q

/-- Every object on the way to the paths leads to a value at one of them. -/
def HoldsOnly (d : Document) (paths : List Path) : Prop :=
  ∀ p j, d.get? p = some j →
    (∃ q ∈ paths, q <+: p) ∨ j.isObj ∧ ∃ q ∈ paths, p <+: q ∧ (d.get? q).isSome

theorem HoldsOnly.confinedTo {paths : List Path} (h : d.HoldsOnly paths) : d.ConfinedTo paths := by
  intro p j hp
  rcases h p j hp with hbelow | ⟨hobj, q, hq, hpq, -⟩
  · exact .inl hbelow
  · exact .inr ⟨hobj, q, hq, hpq⟩

theorem HoldsOnly.mono {paths paths' : List Path} (h : d.HoldsOnly paths) (hsub : ∀ p ∈ paths, p ∈ paths') :
    d.HoldsOnly paths' := by
  intro p j hp
  rcases h p j hp with ⟨q, hq, hqp⟩ | ⟨hobj, q, hq, hrest⟩
  · exact .inl ⟨q, hsub q hq, hqp⟩
  · exact .inr ⟨hobj, q, hsub q hq, hrest⟩

theorem holdsOnly_empty (paths : List Path) : (∅ : Document).HoldsOnly paths := by
  intro p j hp
  simp at hp

theorem HoldsOnly.set {paths : List Path} (h : d.HoldsOnly paths) (hp : p ∈ paths) (j : Json) :
    (d.set p j).HoldsOnly paths := by
  intro q x hq
  have hqne : q ≠ [] := ne_nil_of_get? hq
  by_cases hpq : p <+: q
  · exact .inl ⟨p, hp, hpq⟩
  by_cases hqp : q <+: p
  · -- the object was put on the way to the new value
    have hne : q ≠ p := fun he => hpq (he ▸ List.prefix_refl q)
    obtain ⟨inner, hinner⟩ := Fields.isObj_get?_set d.fields hqne hqp hne j.normalize
    obtain rfl : x = .obj inner := Option.some.inj (hq.symm.trans hinner)
    have hpne : p ≠ [] := fun he => hpq (he ▸ List.nil_prefix)
    exact .inr ⟨rfl, p, hp, hqp, by rw [get?_set_self d hpne]; rfl⟩
  · rw [get?_set_of_apart d ⟨hpq, hqp⟩] at hq
    rcases h q x hq with hbelow | ⟨hobj, r, hr, hqr, hsome⟩
    · exact .inl hbelow
    · have hapart : p.Apart r := Path.Apart.of_prefix ⟨hpq, hqp⟩ hqr
      exact .inr ⟨hobj, r, hr, hqr, by rwa [get?_set_of_apart d hapart]⟩

/-- Writes what a document holds at a path into another one. -/
def copyTo (d out : Document) (p : Path) : Document :=
  match d.get? p with
  | some j => out.set p j
  | none => out

theorem get?_copyTo_self (hout : out.get? p = none) : (d.copyTo out p).get? p = d.get? p := by
  unfold copyTo
  cases h : d.get? p with
  | none => exact hout
  | some j =>
    dsimp only
    rw [get?_set_self out (ne_nil_of_get? h), normalize_of_get? h]

theorem get?_copyTo_of_apart (h : q.Apart p) : (d.copyTo out q).get? p = out.get? p := by
  unfold copyTo
  cases d.get? q with
  | none => rfl
  | some j => exact get?_set_of_apart out h j

theorem get?_foldl_copyTo_of_apart {paths : List Path} (h : ∀ q ∈ paths, q.Apart p) :
    (paths.foldl d.copyTo out).get? p = out.get? p := by
  induction paths generalizing out with
  | nil => rfl
  | cons q r ih =>
    obtain ⟨hq, hr⟩ := List.forall_mem_cons.1 h
    rw [List.foldl_cons, ih hr, get?_copyTo_of_apart hq]

theorem get?_foldl_copyTo {paths : List Path} (h : paths.Pairwise Path.Apart) (hp : p ∈ paths)
    (hout : out.get? p = none) : (paths.foldl d.copyTo out).get? p = d.get? p := by
  induction paths generalizing out with
  | nil => simp at hp
  | cons q r ih =>
    obtain ⟨hq, hr⟩ := List.pairwise_cons.1 h
    rw [List.foldl_cons]
    rcases List.mem_cons.1 hp with rfl | hp
    · rw [get?_foldl_copyTo_of_apart fun q hmem => (hq q hmem).symm, get?_copyTo_self hout]
    · exact ih hr hp (by rw [get?_copyTo_of_apart (hq p hp), hout])

theorem get?_extract {paths : List Path} (h : paths.Pairwise Path.Apart) (hp : p ∈ paths) :
    (d.extract paths).get? p = d.get? p :=
  get?_foldl_copyTo h hp (get?_empty p)

theorem HoldsOnly.foldl_copyTo {paths l : List Path} (h : out.HoldsOnly paths) (hl : ∀ p ∈ l, p ∈ paths) :
    (l.foldl d.copyTo out).HoldsOnly paths := by
  induction l generalizing out with
  | nil => exact h
  | cons p r ih =>
    obtain ⟨hp, hr⟩ := List.forall_mem_cons.1 hl
    refine ih ?_ hr
    unfold copyTo
    cases d.get? p with
    | none => exact h
    | some j => exact h.set hp j

theorem holdsOnly_extract (d : Document) (paths : List Path) : (d.extract paths).HoldsOnly paths :=
  (holdsOnly_empty paths).foldl_copyTo fun _ hp => hp

theorem extract_congr {d e : Document} {paths : List Path} (h : ∀ p ∈ paths, d.get? p = e.get? p) :
    d.extract paths = e.extract paths :=
  List.foldl_ext _ _ _ fun out p hp => by rw [h p hp]

theorem same_comm (d e : Document) : d.same e = e.same d := Json.same_comm d.toJson e.toJson

theorem get?_of_same {d e : Document} (h : d.same e = true) (p : Path) :
    (d.get? p).map Json.unsignedZeros = (e.get? p).map Json.unsignedZeros := by
  have hfields : Json.unsignedZerosFields d.fields = Json.unsignedZerosFields e.fields := by
    simpa [same, Json.same, toJson, Json.unsignedZeros] using h
  rw [get?, get?, ← Fields.get?_unsignedZeros, ← Fields.get?_unsignedZeros, hfields]

end Document

end RolloutControl
