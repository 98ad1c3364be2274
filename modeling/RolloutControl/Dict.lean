import RolloutControl.Assoc
/-! Finite maps with their entries in ascending order of the keys. Two maps are equal as soon as
they hold the same value, or none, at every key. -/

namespace RolloutControl

structure Dict (κ ν : Type) [LT κ] where
  entries : List (κ × ν)
  ascending : Assoc.Ascending entries

namespace Dict

variable {κ ν μ : Type} [LT κ]

instance [DecidableEq κ] [DecidableEq ν] : DecidableEq (Dict κ ν)
  | ⟨l, _⟩, ⟨m, _⟩ =>
    if h : l = m then isTrue (by cases h; rfl) else isFalse fun he => h (Dict.mk.inj he)

def empty : Dict κ ν := ⟨[], List.Pairwise.nil⟩

instance : EmptyCollection (Dict κ ν) := ⟨empty⟩
instance : Inhabited (Dict κ ν) := ⟨∅⟩

def keys (d : Dict κ ν) : List κ := d.entries.map (·.1)

def size (d : Dict κ ν) : Nat := d.entries.length

def isEmpty (d : Dict κ ν) : Bool := d.entries.isEmpty

def filter (p : κ → ν → Bool) (d : Dict κ ν) : Dict κ ν :=
  ⟨d.entries.filter fun e => p e.1 e.2, d.ascending.filter _⟩

def map (f : ν → μ) (d : Dict κ ν) : Dict κ μ :=
  ⟨d.entries.map fun e => (e.1, f e.2), by
    have h := d.ascending
    unfold Assoc.Ascending at h ⊢
    rw [List.pairwise_map]
    exact h⟩

variable [DecidableEq κ]

def get? (d : Dict κ ν) (k : κ) : Option ν := Assoc.lookup k d.entries

def contains (d : Dict κ ν) (k : κ) : Bool := (d.get? k).isSome

def erase (d : Dict κ ν) (k : κ) : Dict κ ν :=
  ⟨Assoc.erase k d.entries, Assoc.ascending_erase d.ascending⟩

variable [DecidableLT κ] [KeyOrder κ]

def insert (d : Dict κ ν) (k : κ) (v : ν) : Dict κ ν :=
  ⟨Assoc.insert k v d.entries, Assoc.ascending_insert d.ascending⟩

/-- Later entries win over earlier ones of the same key. -/
def ofList (l : List (κ × ν)) : Dict κ ν := ⟨Assoc.ofList l, Assoc.ascending_ofList l⟩

def insertAll (d : Dict κ ν) (l : List (κ × ν)) : Dict κ ν :=
  l.foldl (fun acc e => acc.insert e.1 e.2) d

omit [DecidableLT κ] in
@[ext] theorem ext {d e : Dict κ ν} (h : ∀ k, d.get? k = e.get? k) : d = e := by
  obtain ⟨l, hl⟩ := d
  obtain ⟨m, hm⟩ := e
  obtain rfl : l = m := Assoc.ext_lookup hl hm h
  rfl

omit [DecidableLT κ] [KeyOrder κ] in
@[simp] theorem get?_empty (k : κ) : (∅ : Dict κ ν).get? k = none := rfl

@[simp] theorem get?_insert (d : Dict κ ν) (j k : κ) (v : ν) :
    (d.insert k v).get? j = if j = k then some v else d.get? j :=
  Assoc.lookup_insert j k v d.entries

omit [DecidableLT κ] [KeyOrder κ] in
@[simp] theorem get?_erase (d : Dict κ ν) (j k : κ) :
    (d.erase k).get? j = if j = k then none else d.get? j :=
  Assoc.lookup_erase j k d.entries

omit [DecidableLT κ] in
theorem mem_entries_iff {d : Dict κ ν} {e : κ × ν} : e ∈ d.entries ↔ d.get? e.1 = some e.2 :=
  ⟨Assoc.lookup_of_mem d.ascending, Assoc.mem_of_lookup⟩

omit [DecidableEq κ] [DecidableLT κ] in
theorem entries_pairwise_ne (d : Dict κ ν) : d.entries.Pairwise fun a b => a.1 ≠ b.1 :=
  d.ascending.imp fun {a b} h (he : a.1 = b.1) => KeyOrder.irrefl b.1 (he ▸ h)

theorem get?_ofList_eq_some {k : κ} {v : ν} {l : List (κ × ν)}
    (h : l.Pairwise fun a b => a.1 ≠ b.1) : (ofList l).get? k = some v ↔ (k, v) ∈ l := by
  simpa [get?, ofList, Assoc.ofList] using Assoc.lookup_foldl_insert (k := k) (v := v) (m := []) h

section foldl
variable {ι : Type} {key : ι → κ} {val : ι → ν} {l : List ι}

theorem get?_foldl_insert_of_ne {k : κ} (h : ∀ i ∈ l, key i ≠ k) (d : Dict κ ν) :
    (l.foldl (fun d i => d.insert (key i) (val i)) d).get? k = d.get? k := by
  induction l generalizing d with
  | nil => rfl
  | cons i r ih =>
    obtain ⟨hi, hr⟩ := List.forall_mem_cons.1 h
    rw [List.foldl_cons, ih hr, get?_insert, if_neg (Ne.symm hi)]

theorem get?_foldl_insert_of_mem (hkey : ∀ i j, key i = key j → i = j) {i : ι} (hi : i ∈ l) (d : Dict κ ν) :
    (l.foldl (fun d i => d.insert (key i) (val i)) d).get? (key i) = some (val i) := by
  induction l generalizing d with
  | nil => cases hi
  | cons j r ih =>
    rw [List.foldl_cons]
    by_cases hr : i ∈ r
    · exact ih hr _
    · obtain rfl : i = j := (List.mem_cons.1 hi).resolve_right hr
      have hlast : ∀ j ∈ r, key j ≠ key i := fun j hj he => hr (hkey j i he ▸ hj)
      rw [get?_foldl_insert_of_ne hlast, get?_insert, if_pos rfl]

end foldl

omit [DecidableLT κ] in
theorem mem_keys_iff {d : Dict κ ν} {k : κ} : k ∈ d.keys ↔ (d.get? k).isSome := by
  constructor
  · intro h
    obtain ⟨e, he, rfl⟩ := List.mem_map.1 h
    simp [mem_entries_iff.1 he]
  · intro h
    obtain ⟨v, hv⟩ := Option.isSome_iff_exists.1 h
    exact List.mem_map.2 ⟨(k, v), mem_entries_iff.2 hv, rfl⟩

end Dict

/-- The distinct members of a list, ascending. -/
def ascending {κ : Type} [LT κ] [DecidableLT κ] [DecidableEq κ] [KeyOrder κ] (l : List κ) : List κ :=
  (Dict.ofList (l.map (·, ()))).keys

@[simp] theorem mem_ascending {κ : Type} [LT κ] [DecidableLT κ] [DecidableEq κ] [KeyOrder κ] {k : κ}
    {l : List κ} : k ∈ ascending l ↔ k ∈ l := by
  have h := Assoc.lookup_foldl_insert_isSome k (l.map (·, ())) []
  simpa [ascending, Dict.mem_keys_iff, Dict.get?, Dict.ofList, Assoc.ofList] using h

theorem pairwise_ascending {κ : Type} [LT κ] [DecidableLT κ] [DecidableEq κ] [KeyOrder κ] (l : List κ) :
    (ascending l).Pairwise (· < ·) := by
  rw [ascending, Dict.keys, List.pairwise_map]
  exact (Dict.ofList (l.map (·, ()))).ascending

theorem ascending_congr {κ : Type} [LT κ] [DecidableLT κ] [DecidableEq κ] [KeyOrder κ] {l m : List κ}
    (h : ∀ k, k ∈ l ↔ k ∈ m) : ascending l = ascending m := by
  have hdict : Dict.ofList (l.map (·, ())) = Dict.ofList (m.map (·, ())) := by
    ext1 k
    have hmem : k ∈ ascending l ↔ k ∈ ascending m := by simpa using h k
    rw [ascending, ascending, Dict.mem_keys_iff, Dict.mem_keys_iff] at hmem
    cases hl : (Dict.ofList (l.map (·, ()))).get? k <;> cases hm : (Dict.ofList (m.map (·, ()))).get? k <;>
      simp [hl, hm] at hmem ⊢
  rw [ascending, ascending, hdict]

end RolloutControl
