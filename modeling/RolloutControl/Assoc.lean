/-! Association lists kept in strictly ascending order of their keys. Reading, writing and erasing
a key touch no other key, and an ascending list is determined by what it holds at each key. -/

namespace RolloutControl

/-- A strict total order on keys. -/
class KeyOrder (κ : Type) [LT κ] : Prop where
  irrefl (a : κ) : ¬a < a
  trans {a b c : κ} : a < b → b < c → a < c
  connected {a b : κ} : ¬a < b → ¬b < a → a = b

instance : KeyOrder String where
  irrefl := String.lt_irrefl
  trans := String.lt_trans
  connected h h' := String.le_antisymm (String.not_lt.1 h') (String.not_lt.1 h)

namespace KeyOrder

variable {κ : Type} [LT κ] [KeyOrder κ] {a b c : κ}

theorem asymm (h : a < b) : ¬b < a := fun h' => irrefl a (trans h h')

theorem not_lt_trans (h : ¬b < a) (h' : ¬c < b) : ¬c < a := by
  intro hca
  by_cases hbc : b < c
  · exact h (trans hbc hca)
  · exact h (connected hbc h' ▸ hca)

end KeyOrder

namespace Assoc

variable {κ ν : Type}

def lookup [DecidableEq κ] (k : κ) : List (κ × ν) → Option ν
  | [] => none
  | e :: r => if k = e.1 then some e.2 else lookup k r

def insert [LT κ] [DecidableLT κ] [DecidableEq κ] (k : κ) (v : ν) : List (κ × ν) → List (κ × ν)
  | [] => [(k, v)]
  | e :: r =>
    if k < e.1 then (k, v) :: e :: r
    else if k = e.1 then (k, v) :: r
    else e :: insert k v r

def erase [DecidableEq κ] (k : κ) (l : List (κ × ν)) : List (κ × ν) :=
  l.filter fun e => e.1 ≠ k

/-- Later entries win over earlier ones of the same key. -/
def ofList [LT κ] [DecidableLT κ] [DecidableEq κ] (l : List (κ × ν)) : List (κ × ν) :=
  l.foldl (fun acc e => insert e.1 e.2 acc) []

abbrev Ascending [LT κ] (l : List (κ × ν)) : Prop := l.Pairwise fun a b => a.1 < b.1

section lookup
variable [DecidableEq κ]

@[simp] theorem lookup_nil (k : κ) : lookup k ([] : List (κ × ν)) = none := rfl

theorem lookup_cons (k : κ) (e : κ × ν) (r : List (κ × ν)) :
    lookup k (e :: r) = if k = e.1 then some e.2 else lookup k r := rfl

theorem lookup_eq_none {k : κ} {l : List (κ × ν)} :
    lookup k l = none ↔ ∀ e ∈ l, e.1 ≠ k := by
  induction l with
  | nil => simp
  | cons e r ih =>
    rw [lookup_cons]
    by_cases h : k = e.1
    · simp [h]
    · simp [h, ih, Ne.symm h]

theorem mem_of_lookup {k : κ} {v : ν} {l : List (κ × ν)} (h : lookup k l = some v) :
    (k, v) ∈ l := by
  induction l with
  | nil => simp at h
  | cons e r ih =>
    rw [lookup_cons] at h
    split at h
    · next hk => obtain rfl := Option.some.inj h; simp [hk]
    · exact List.mem_cons_of_mem _ (ih h)

theorem lookup_map {μ : Type} (f : ν → μ) (k : κ) (l : List (κ × ν)) :
    lookup k (l.map fun e => (e.1, f e.2)) = (lookup k l).map f := by
  induction l with
  | nil => rfl
  | cons e r ih =>
    rw [List.map_cons, lookup_cons, lookup_cons, ih]
    split <;> rfl

theorem lookup_filter {p : κ → Bool} {k : κ} (h : p k = true) (l : List (κ × ν)) :
    lookup k (l.filter fun e => p e.1) = lookup k l := by
  induction l with
  | nil => rfl
  | cons e r ih =>
    by_cases hk : k = e.1
    · rw [List.filter_cons_of_pos (hk ▸ h), lookup_cons, lookup_cons, if_pos hk, if_pos hk]
    · rw [lookup_cons, if_neg hk, ← ih, List.filter_cons]
      split
      · rw [lookup_cons, if_neg hk]
      · rfl

theorem lookup_eq_some_of_nodup {k : κ} {v : ν} {l : List (κ × ν)} (h : (l.map (·.1)).Nodup) :
    lookup k l = some v ↔ (k, v) ∈ l := by
  refine ⟨mem_of_lookup, fun hmem => ?_⟩
  induction l with
  | nil => cases hmem
  | cons e r ih =>
    obtain ⟨he, hr⟩ := List.nodup_cons.1 h
    rcases List.mem_cons.1 hmem with rfl | hmem
    · exact if_pos rfl
    · have hne : k ≠ e.1 := fun hk => he (List.mem_map.2 ⟨_, hmem, hk⟩)
      rw [lookup_cons, if_neg hne, ih hr hmem]

@[simp] theorem lookup_erase (j k : κ) (l : List (κ × ν)) :
    lookup j (erase k l) = if j = k then none else lookup j l := by
  induction l with
  | nil => simp [erase]
  | cons e r ih =>
    unfold erase at ih ⊢
    by_cases h : e.1 = k <;> by_cases hj : j = e.1 <;> by_cases hk : j = k <;>
      simp_all [lookup_cons]

end lookup

section insert
variable [LT κ] [DecidableLT κ] [DecidableEq κ]

@[simp] theorem lookup_insert (j k : κ) (v : ν) (l : List (κ × ν)) :
    lookup j (insert k v l) = if j = k then some v else lookup j l := by
  induction l with
  | nil => simp [insert, lookup_cons]
  | cons e r ih =>
    unfold insert
    split
    · simp [lookup_cons]
    · split
      · next h => simp only [lookup_cons, h]; split <;> rfl
      · next h =>
        rw [lookup_cons, ih, lookup_cons]
        by_cases hj : j = e.1
        · simp [hj, Ne.symm h]
        · simp [hj]

theorem mem_insert {k : κ} {v : ν} {l : List (κ × ν)} {e : κ × ν} (h : e ∈ insert k v l) :
    e = (k, v) ∨ e ∈ l := by
  induction l with
  | nil => simpa [insert] using h
  | cons d r ih =>
    unfold insert at h
    split at h
    · simpa using h
    · split at h
      · rcases List.mem_cons.1 h with h | h <;> simp [h]
      · rcases List.mem_cons.1 h with h | h
        · simp [h]
        · rcases ih h with h | h <;> simp [h]

theorem ascending_insert [KeyOrder κ] {k : κ} {v : ν} {l : List (κ × ν)} (h : Ascending l) :
    Ascending (insert k v l) := by
  induction l with
  | nil => simp [insert]
  | cons e r ih =>
    obtain ⟨he, hr⟩ := List.pairwise_cons.1 h
    unfold insert
    split
    · next hk =>
      refine List.pairwise_cons.2 ⟨fun d hd => ?_, h⟩
      rcases List.mem_cons.1 hd with rfl | hd
      · exact hk
      · exact KeyOrder.trans hk (he d hd)
    · next hk =>
      split
      · next hke => exact List.pairwise_cons.2 ⟨fun d hd => hke ▸ he d hd, hr⟩
      · next hke =>
        refine List.pairwise_cons.2 ⟨fun d hd => ?_, ih hr⟩
        rcases mem_insert hd with rfl | hd
        · exact Decidable.byContradiction fun hek => hke (KeyOrder.connected hk hek)
        · exact he d hd

theorem ascending_foldl_insert [KeyOrder κ] (l acc : List (κ × ν)) (h : Ascending acc) :
    Ascending (l.foldl (fun acc e => insert e.1 e.2 acc) acc) := by
  induction l generalizing acc with
  | nil => exact h
  | cons e r ih => exact ih _ (ascending_insert h)

theorem ascending_ofList [KeyOrder κ] (l : List (κ × ν)) : Ascending (ofList l) :=
  ascending_foldl_insert l [] List.Pairwise.nil

theorem lookup_foldl_insert_isSome (k : κ) (l acc : List (κ × ν)) :
    (lookup k (l.foldl (fun acc e => insert e.1 e.2 acc) acc)).isSome ↔
      (∃ v, (k, v) ∈ l) ∨ (lookup k acc).isSome := by
  induction l generalizing acc with
  | nil => simp
  | cons e r ih =>
    rw [List.foldl_cons, ih, lookup_insert]
    by_cases h : k = e.1
    · subst h
      simp only [if_true, Option.isSome_some, or_true, true_iff]
      exact .inl ⟨e.2, List.mem_cons_self⟩
    · simp [h, Prod.ext_iff]

/-- With distinct keys no entry is lost. -/
theorem lookup_foldl_insert {k : κ} {v : ν} {l m : List (κ × ν)}
    (hl : l.Pairwise fun a b => a.1 ≠ b.1) :
    lookup k (l.foldl (fun acc e => insert e.1 e.2 acc) m) = some v ↔
      (k, v) ∈ l ∨ (∀ e ∈ l, e.1 ≠ k) ∧ lookup k m = some v := by
  induction l generalizing m with
  | nil => simp
  | cons e r ih =>
    obtain ⟨j, w⟩ := e
    obtain ⟨hj, hr⟩ := List.pairwise_cons.1 hl
    rw [List.foldl_cons, ih hr, lookup_insert, List.mem_cons, Prod.mk.injEq, List.forall_mem_cons]
    by_cases h : k = j
    · subst h
      have hout : (k, v) ∉ r := fun hm => hj _ hm rfl
      have hfresh : ∀ e ∈ r, e.1 ≠ k := fun e he => (hj e he).symm
      simp only [hout, false_or, ne_eq, not_true, false_and, or_false, if_true, true_and,
        Option.some.injEq]
      exact ⟨fun hv => hv.2.symm, fun hv => ⟨hfresh, hv.symm⟩⟩
    · simp only [h, Ne.symm h, false_and, false_or, if_false, ne_eq, not_false_eq_true, true_and]

theorem lookup_ofList_of_nodup {l : List (κ × ν)} (h : (l.map (·.1)).Nodup) (k : κ) :
    lookup k (ofList l) = lookup k l := by
  refine Option.ext fun v => ?_
  rw [ofList, lookup_foldl_insert (List.pairwise_map.1 h), lookup_eq_some_of_nodup h]
  simp

end insert

section order
variable [LT κ] [DecidableEq κ]

theorem ascending_erase {k : κ} {l : List (κ × ν)} (h : Ascending l) :
    Ascending (erase k l) :=
  h.filter _

omit [DecidableEq κ] in
theorem nodup_of_ascending [KeyOrder κ] {l : List (κ × ν)} (h : Ascending l) : (l.map (·.1)).Nodup :=
  List.pairwise_map.2 (h.imp fun {a b} hlt (he : a.1 = b.1) => KeyOrder.irrefl b.1 (he ▸ hlt))

theorem lookup_of_mem [KeyOrder κ] {l : List (κ × ν)} (h : Ascending l) {e : κ × ν} (he : e ∈ l) :
    lookup e.1 l = some e.2 :=
  (lookup_eq_some_of_nodup (nodup_of_ascending h)).2 he

/-- An ascending list is determined by its lookups. -/
theorem ext_lookup [KeyOrder κ] {l m : List (κ × ν)} (hl : Ascending l) (hm : Ascending m)
    (h : ∀ k, lookup k l = lookup k m) : l = m := by
  induction l generalizing m with
  | nil =>
    cases m with
    | nil => rfl
    | cons e r => simpa [lookup_cons] using h e.1
  | cons d r ih =>
    cases m with
    | nil => simpa [lookup_cons] using h d.1
    | cons e s =>
      obtain ⟨hd, hr⟩ := List.pairwise_cons.1 hl
      obtain ⟨he, hs⟩ := List.pairwise_cons.1 hm
      have hde : (d.1, d.2) ∈ e :: s := mem_of_lookup (by simpa [lookup_cons] using (h d.1).symm)
      have hed : (e.1, e.2) ∈ d :: r := mem_of_lookup (by simpa [lookup_cons] using h e.1)
      have hkey : d = e := by
        rcases List.mem_cons.1 hde with h₁ | h₁
        · exact h₁
        · rcases List.mem_cons.1 hed with h₂ | h₂
          · exact h₂.symm
          · exact absurd (KeyOrder.trans (hd _ h₂) (he _ h₁)) (KeyOrder.irrefl _)
      subst hkey
      congr 1
      refine ih hr hs fun k => ?_
      have hk := h k
      rw [lookup_cons, lookup_cons] at hk
      by_cases hkd : k = d.1
      · have out (t : List (κ × ν)) (ht : ∀ e ∈ t, d.1 < e.1) : lookup k t = none :=
          lookup_eq_none.2 fun e he' heq => KeyOrder.irrefl d.1 (by simpa [heq, hkd] using ht e he')
        rw [out r hd, out s he]
      · simpa [hkd] using hk

theorem ofList_of_ascending [DecidableLT κ] [KeyOrder κ] {l : List (κ × ν)} (h : Ascending l) :
    ofList l = l := by
  refine ext_lookup (ascending_ofList l) h fun k => ?_
  exact lookup_ofList_of_nodup (nodup_of_ascending h) k

theorem insert_insert [DecidableLT κ] [KeyOrder κ] (k : κ) (v w : ν) {l : List (κ × ν)} (h : Ascending l) :
    insert k w (insert k v l) = insert k w l := by
  refine ext_lookup (ascending_insert (ascending_insert h)) (ascending_insert h) fun j => ?_
  by_cases hj : j = k <;> simp [hj]

theorem insert_of_lookup [DecidableLT κ] [KeyOrder κ] {k : κ} {v : ν} {l : List (κ × ν)} (h : Ascending l)
    (hk : lookup k l = some v) : insert k v l = l := by
  refine ext_lookup (ascending_insert h) h fun j => ?_
  by_cases hj : j = k <;> simp [hj, hk]

omit [LT κ] in
theorem erase_of_lookup_none {k : κ} {l : List (κ × ν)} (hk : lookup k l = none) : erase k l = l :=
  List.filter_eq_self.2 fun e he => by simpa using lookup_eq_none.1 hk e he

end order

end Assoc

end RolloutControl
