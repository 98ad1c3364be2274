import RolloutControl.Document.Basic
/-! Deep merge: objects are merged key by key, and for anything else the second document wins. -/

namespace RolloutControl

namespace Fields

open Json

mutual

def mergeValue (old : Option Json) : Json → Json
  | .obj new => .obj (merge (ofValue? old) new)
  | j => j

def merge (fs : Fields) : List (String × Json) → Fields
  | [] => fs
  | (k, j) :: r => merge (Assoc.insert k (mergeValue (Assoc.lookup k fs) j) fs) r

end

mutual

theorem canonical_mergeValue {old : Option Json} (ho : (ofValue? old).Canonical) :
    (j : Json) → j.Canonical → (mergeValue old j).Canonical
  | .obj new, hj => canonical_merge ho new hj.2
  | .null, hj | .bool _, hj | .int _, hj | .decimal _, hj | .str _, hj | .arr _, hj => by
    simpa [mergeValue] using hj

theorem canonical_merge {fs : Fields} (h : fs.Canonical) :
    (new : List (String × Json)) → CanonicalFields new → (merge fs new).Canonical
  | [], _ => h
  | (k, j) :: r, hn => by
    unfold merge
    exact canonical_merge (h.insert k (canonical_mergeValue (h.ofValue? k) j hn.1)) r hn.2

end

end Fields

namespace Document

def merge (d e : Document) : Document :=
  ⟨d.fields.merge e.fields, Fields.canonical_merge d.canonical e.fields e.canonical.2⟩

end Document

end RolloutControl
