import RolloutControl.Json.Basic
/-! Documents: trees of JSON objects addressed by key paths. Writing at a path replaces whatever
stands in its way, reading it back gives what was written, and paths that neither extend the
written one nor lead to it keep their values. -/

namespace RolloutControl

abbrev Path := List String

namespace Fields

open Json

/-- The fields of an object, and no fields for any other value. -/
def ofValue? : Option Json → Fields
  | some (.obj inner) => inner
  | _ => []

def get? (fs : Fields) : Path → Option Json
  | [] => none
  | [k] => Assoc.lookup k fs
  | k :: rest => get? (ofValue? (Assoc.lookup k fs)) rest

def set (fs : Fields) (path : Path) (j : Json) : Fields :=
  match path with
  | [] => fs
  | [k] => Assoc.insert k j fs
  | k :: rest => Assoc.insert k (.obj (set (ofValue? (Assoc.lookup k fs)) rest j)) fs

def remove (fs : Fields) : Path → Fields
  | [] => fs
  | [k] => Assoc.erase k fs
  | k :: rest =>
    match Assoc.lookup k fs with
    | some (.obj inner) => Assoc.insert k (.obj (remove inner rest)) fs
    | _ => fs

def pop (fs : Fields) : Path → Option Json × Fields
  | [] => (none, fs)
  | [k] => (Assoc.lookup k fs, Assoc.erase k fs)
  | k :: rest =>
    match Assoc.lookup k fs with
    | some (.obj inner) => ((pop inner rest).1, Assoc.insert k (.obj (pop inner rest).2) fs)
    | _ => (none, fs)

theorem pop_snd (fs : Fields) (p : Path) : (fs.pop p).2 = fs.remove p := by
  induction p generalizing fs with
  | nil => rfl
  | cons k rest ih =>
    cases rest with
    | nil => rfl
    | cons k' rest =>
      unfold pop remove
      split
      · rw [ih]
      · rfl

def Canonical (fs : Fields) : Prop := Assoc.Ascending fs ∧ CanonicalFields fs

theorem Canonical.lookup {fs : Fields} (h : Canonical fs) {k : String} {j : Json}
    (hk : Assoc.lookup k fs = some j) : j.Canonical :=
  canonical_of_lookup h.2 hk

theorem Canonical.ofValue? {fs : Fields} (h : Canonical fs) (k : String) :
    Canonical (ofValue? (Assoc.lookup k fs)) := by
  unfold Fields.ofValue?
  split
  · next inner hk => exact h.lookup hk
  · exact ⟨List.Pairwise.nil, trivial⟩

theorem Canonical.insert {fs : Fields} (h : Canonical fs) (k : String) {j : Json}
    (hj : j.Canonical) : Canonical (Assoc.insert k j fs) :=
  ⟨Assoc.ascending_insert h.1, canonicalFields_insert h.2 hj⟩

theorem Canonical.get? {fs : Fields} (h : Canonical fs) {p : Path} {j : Json}
    (hp : fs.get? p = some j) : j.Canonical := by
  induction p generalizing fs with
  | nil => simp [Fields.get?] at hp
  | cons k rest ih =>
    cases rest with
    | nil => exact h.lookup hp
    | cons k' rest => exact ih (h.ofValue? k) hp

theorem Canonical.set {fs : Fields} (h : Canonical fs) (p : Path) {j : Json} (hj : j.Canonical) :
    Canonical (fs.set p j) := by
  induction p generalizing fs with
  | nil => exact h
  | cons k rest ih =>
    cases rest with
    | nil => exact h.insert k hj
    | cons k' rest => exact h.insert k (ih (h.ofValue? k))

theorem Canonical.remove {fs : Fields} (h : Canonical fs) (p : Path) : Canonical (fs.remove p) := by
  induction p generalizing fs with
  | nil => exact h
  | cons k rest ih =>
    cases rest with
    | nil => exact ⟨Assoc.ascending_erase h.1, canonicalFields_erase h.2⟩
    | cons k' rest =>
      unfold Fields.remove
      split
      · next inner hk => exact h.insert k (ih (h.lookup hk))
      · exact h

end Fields

/-- An object in canonical form. -/
structure Document where
  fields : Fields
  canonical : fields.Canonical

namespace Document

open Json

instance : DecidableEq Document
  | ⟨f, _⟩, ⟨g, _⟩ =>
    if h : f = g then isTrue (by cases h; rfl) else isFalse fun he => h (Document.mk.inj he)

def empty : Document := ⟨[], List.Pairwise.nil, trivial⟩

instance : EmptyCollection Document := ⟨empty⟩
instance : Inhabited Document := ⟨∅⟩

def toJson (d : Document) : Json := .obj d.fields

def same (d e : Document) : Bool := d.toJson.same e.toJson

def isEmpty (d : Document) : Bool := d.fields.isEmpty

def keys (d : Document) : List String := d.fields.map (·.1)

def ofFields (fs : Fields) : Document :=
  ⟨Assoc.ofList (normalizeFields fs), canonical_normalize (.obj fs)⟩

/-- Objects are documents, and so is nothing at all. -/
def ofJson? : Json → Option Document
  | .null => some ∅
  | .obj fs => some (ofFields fs)
  | _ => none

def get? (d : Document) (p : Path) : Option Json := d.fields.get? p

def string? (d : Document) (p : Path) : Option String := do (← d.get? p).str?

def set (d : Document) (p : Path) (j : Json) : Document :=
  ⟨d.fields.set p j.normalize, d.canonical.set p (canonical_normalize j)⟩

def remove (d : Document) (p : Path) : Document := ⟨d.fields.remove p, d.canonical.remove p⟩

/-- The value at a path, if there is one, and the document without it. -/
def pop (d : Document) (p : Path) : Option Json × Document :=
  ((d.fields.pop p).1, ⟨(d.fields.pop p).2, d.fields.pop_snd p ▸ d.canonical.remove p⟩)

def setStrings (d : Document) (p : Path) (l : List String) : Document := d.set p (strings l)

/-- What the document holds at the given paths, and nothing else. -/
def extract (d : Document) (paths : List Path) : Document :=
  paths.foldl (fun out p =>
    match d.get? p with
    | some j => out.set p j
    | none => out) ∅

end Document

end RolloutControl
