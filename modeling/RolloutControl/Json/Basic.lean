import RolloutControl.Assoc
import RolloutControl.Number.Decimal
/-! JSON values. Whole numbers and numbers with a fraction are different values, and an object is
canonical when its keys ascend strictly, so that equal canonical values hold the same things. -/

namespace RolloutControl

inductive Json
  | null
  | bool (b : Bool)
  | int (n : Int)
  | decimal (d : Decimal)
  | str (s : String)
  | arr (items : List Json)
  | obj (fields : List (String × Json))
deriving Repr, Inhabited

abbrev Fields := List (String × Json)

namespace Json

mutual

def decEq : (a b : Json) → Decidable (a = b)
  | .null, .null => isTrue rfl
  | .bool a, .bool b => decidable_of_iff (a = b) (by simp)
  | .int a, .int b => decidable_of_iff (a = b) (by simp)
  | .decimal a, .decimal b => decidable_of_iff (a = b) (by simp)
  | .str a, .str b => decidable_of_iff (a = b) (by simp)
  | .arr a, .arr b =>
    have := decEqItems a b
    decidable_of_iff (a = b) (by simp)
  | .obj a, .obj b =>
    have := decEqFields a b
    decidable_of_iff (a = b) (by simp)
  | .null, .bool _ | .null, .int _ | .null, .decimal _ | .null, .str _ | .null, .arr _
  | .null, .obj _ | .bool _, .null | .bool _, .int _ | .bool _, .decimal _ | .bool _, .str _
  | .bool _, .arr _ | .bool _, .obj _ | .int _, .null | .int _, .bool _ | .int _, .decimal _
  | .int _, .str _ | .int _, .arr _ | .int _, .obj _ | .decimal _, .null | .decimal _, .bool _
  | .decimal _, .int _ | .decimal _, .str _ | .decimal _, .arr _ | .decimal _, .obj _
  | .str _, .null | .str _, .bool _ | .str _, .int _ | .str _, .decimal _ | .str _, .arr _
  | .str _, .obj _ | .arr _, .null | .arr _, .bool _ | .arr _, .int _ | .arr _, .decimal _
  | .arr _, .str _ | .arr _, .obj _ | .obj _, .null | .obj _, .bool _ | .obj _, .int _
  | .obj _, .decimal _ | .obj _, .str _ | .obj _, .arr _ => isFalse (by simp)

def decEqItems : (a b : List Json) → Decidable (a = b)
  | [], [] => isTrue rfl
  | [], _ :: _ | _ :: _, [] => isFalse (by simp)
  | x :: xs, y :: ys =>
    have := decEq x y
    have := decEqItems xs ys
    decidable_of_iff (x = y ∧ xs = ys) (by simp)

def decEqFields : (a b : List (String × Json)) → Decidable (a = b)
  | [], [] => isTrue rfl
  | [], _ :: _ | _ :: _, [] => isFalse (by simp)
  | (j, x) :: xs, (k, y) :: ys =>
    have := decEq x y
    have := decEqFields xs ys
    decidable_of_iff ((j = k ∧ x = y) ∧ xs = ys) (by simp)

end

instance : DecidableEq Json := decEq

mutual

/-- The value without the sign of any zero in it. -/
def unsignedZeros : Json → Json
  | .decimal d => .decimal d.unsignedZero
  | .arr items => .arr (unsignedZerosItems items)
  | .obj fields => .obj (unsignedZerosFields fields)
  | j => j

def unsignedZerosItems : List Json → List Json
  | [] => []
  | x :: r => x.unsignedZeros :: unsignedZerosItems r

def unsignedZerosFields : List (String × Json) → List (String × Json)
  | [] => []
  | (k, x) :: r => (k, x.unsignedZeros) :: unsignedZerosFields r

end

/-- Whether two values are the same as far as anyone can compute with them: zeros of either sign are
equal. -/
def same (a b : Json) : Bool := a.unsignedZeros = b.unsignedZeros

@[simp] theorem same_self (a : Json) : a.same a = true := by simp [same]

theorem same_comm (a b : Json) : a.same b = b.same a := by simp [same, eq_comm]

theorem same_trans {a b c : Json} (h : a.same b = true) (h' : b.same c = true) :
    a.same c = true := by
  simp only [same, decide_eq_true_eq] at h h' ⊢
  exact h.trans h'

/-- The object with these fields; a later field wins over an earlier one of the same name. -/
def object (fields : Fields) : Json := .obj (Assoc.ofList fields)

def strings (l : List String) : Json := .arr (l.map .str)

def str? : Json → Option String
  | .str s => some s
  | _ => none

def obj? : Json → Option Fields
  | .obj fs => some fs
  | _ => none

def isObj (j : Json) : Bool := j.obj?.isSome

@[simp] theorem obj?_obj (fs : Fields) : (Json.obj fs).obj? = some fs := rfl

theorem obj?_eq_some {j : Json} {fs : Fields} : j.obj? = some fs ↔ j = .obj fs := by
  cases j <;> simp [obj?]

mutual

/-- In every object, at any depth, the keys ascend strictly. -/
def Canonical : Json → Prop
  | .arr items => CanonicalItems items
  | .obj fields => Assoc.Ascending fields ∧ CanonicalFields fields
  | _ => True

def CanonicalItems : List Json → Prop
  | [] => True
  | x :: r => Canonical x ∧ CanonicalItems r

def CanonicalFields : List (String × Json) → Prop
  | [] => True
  | (_, x) :: r => Canonical x ∧ CanonicalFields r

end

mutual

def normalize : Json → Json
  | .arr items => .arr (normalizeItems items)
  | .obj fields => .obj (Assoc.ofList (normalizeFields fields))
  | j => j

def normalizeItems : List Json → List Json
  | [] => []
  | x :: r => x.normalize :: normalizeItems r

def normalizeFields : List (String × Json) → List (String × Json)
  | [] => []
  | (k, x) :: r => (k, x.normalize) :: normalizeFields r

end

theorem canonicalFields_iff {fs : Fields} : CanonicalFields fs ↔ ∀ e ∈ fs, Canonical e.2 := by
  induction fs with
  | nil => simp [CanonicalFields]
  | cons e r ih => simp [CanonicalFields, ih]

theorem canonical_of_lookup {fs : Fields} (h : CanonicalFields fs) {k : String} {j : Json}
    (hk : Assoc.lookup k fs = some j) : j.Canonical :=
  canonicalFields_iff.1 h _ (Assoc.mem_of_lookup hk)

theorem canonicalFields_insert {fs : Fields} (h : CanonicalFields fs) {k : String} {j : Json}
    (hj : j.Canonical) : CanonicalFields (Assoc.insert k j fs) :=
  canonicalFields_iff.2 fun e he => by
    rcases Assoc.mem_insert he with rfl | he
    · exact hj
    · exact canonicalFields_iff.1 h e he

theorem canonicalFields_erase {fs : Fields} (h : CanonicalFields fs) {k : String} :
    CanonicalFields (Assoc.erase k fs) :=
  canonicalFields_iff.2 fun e he => canonicalFields_iff.1 h e (List.mem_filter.1 he).1

theorem canonicalFields_foldl_insert (l acc : Fields) (hl : CanonicalFields l)
    (ha : CanonicalFields acc) :
    CanonicalFields (l.foldl (fun acc e => Assoc.insert e.1 e.2 acc) acc) := by
  induction l generalizing acc with
  | nil => exact ha
  | cons e r ih => exact ih _ hl.2 (canonicalFields_insert ha hl.1)

mutual

theorem canonical_normalize : (j : Json) → j.normalize.Canonical
  | .null | .bool _ | .int _ | .decimal _ | .str _ => by simp [normalize, Canonical]
  | .arr items => by simpa [normalize, Canonical] using canonicalItems_normalize items
  | .obj fields => by
    refine ⟨Assoc.ascending_ofList _, ?_⟩
    exact canonicalFields_foldl_insert _ [] (canonicalFields_normalize fields) trivial

theorem canonicalItems_normalize : (l : List Json) → CanonicalItems (normalizeItems l)
  | [] => trivial
  | x :: r => ⟨canonical_normalize x, canonicalItems_normalize r⟩

theorem canonicalFields_normalize : (l : List (String × Json)) → CanonicalFields (normalizeFields l)
  | [] => trivial
  | (_, x) :: r => ⟨canonical_normalize x, canonicalFields_normalize r⟩

end

mutual

theorem normalize_of_canonical : (j : Json) → j.Canonical → j.normalize = j
  | .null, _ | .bool _, _ | .int _, _ | .decimal _, _ | .str _, _ => by simp [normalize]
  | .arr items, h => by rw [normalize, normalizeItems_of_canonical items h]
  | .obj fields, h => by
    rw [normalize, normalizeFields_of_canonical fields h.2, Assoc.ofList_of_ascending h.1]

theorem normalizeItems_of_canonical : (l : List Json) → CanonicalItems l → normalizeItems l = l
  | [], _ => rfl
  | x :: r, h => by
    rw [normalizeItems, normalize_of_canonical x h.1, normalizeItems_of_canonical r h.2]

theorem normalizeFields_of_canonical :
    (l : List (String × Json)) → CanonicalFields l → normalizeFields l = l
  | [], _ => rfl
  | (k, x) :: r, h => by
    rw [normalizeFields, normalize_of_canonical x h.1, normalizeFields_of_canonical r h.2]

end

end Json

end RolloutControl
