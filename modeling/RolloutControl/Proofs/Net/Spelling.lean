import RolloutControl.Net.Address
import RolloutControl.Proofs.Text.Digits
/-! Whatever address is spelled is read back, and so no two addresses are spelled alike. -/

namespace RolloutControl

theorem mapM_eq_none {α β : Type} {f : α → Option β} {l : List α} {a : α} (hmem : a ∈ l) (ha : f a = none) :
    l.mapM f = none := by
  induction l with
  | nil => cases hmem
  | cons b l ih =>
    rw [List.mapM_cons]
    rcases List.mem_cons.1 hmem with rfl | hmem
    · rw [ha]
      rfl
    · rw [ih hmem]
      cases f b <;> rfl

namespace Text

theorem splitList_eq_splitOnP (p : Char → Bool) (cs : List Char) : splitList p cs = cs.splitOnP p := by
  induction cs with
  | nil => rfl
  | cons c r ih =>
    rw [List.splitOnP_cons_eq_if_modifyHead, splitList, ih]
    cases p c with
    | true => rfl
    | false =>
      cases hparts : r.splitOnP p with
      | nil => exact absurd hparts (List.splitOnP_ne_nil p r)
      | cons part parts => rfl

theorem splitList_intercalate {c : Char} {parts : List (List Char)} (hc : ∀ part ∈ parts, c ∉ part)
    (hne : parts ≠ []) : splitList (· == c) ([c].intercalate parts) = parts := by
  rw [splitList_eq_splitOnP, ← List.splitOn_eq_splitOnP, List.splitOn_intercalate c hc hne]

theorem exists_mem_splitList {p : Char → Bool} {c : Char} {cs : List Char} (hp : p c = false) (hc : c ∈ cs) :
    ∃ part ∈ splitList p cs, c ∈ part := by
  induction cs with
  | nil => cases hc
  | cons d r ih =>
    rw [splitList]
    split
    · next hd =>
      have hne : c ≠ d := fun h => Bool.false_ne_true (hp.symm.trans (h ▸ hd))
      obtain ⟨part, hpart, hmem⟩ := ih ((List.mem_cons.1 hc).resolve_left hne)
      exact ⟨part, List.mem_cons_of_mem _ hpart, hmem⟩
    · next hd hparts =>
      rw [splitList_eq_splitOnP] at hparts
      exact absurd hparts (List.splitOnP_ne_nil p r)
    · next part parts hd hparts =>
      rcases List.mem_cons.1 hc with rfl | hc
      · exact ⟨c :: part, List.mem_cons_self, List.mem_cons_self⟩
      · obtain ⟨found, hfound, hmem⟩ := ih hc
        rw [hparts] at hfound
        rcases List.mem_cons.1 hfound with rfl | hfound
        · exact ⟨d :: found, List.mem_cons_self, List.mem_cons_of_mem _ hmem⟩
        · exact ⟨found, List.mem_cons_of_mem _ hfound, hmem⟩

end Text

namespace Net.Address

theorem octet?_toDigits (n : UInt8) : octet? (Nat.toDigits 10 n.toNat) = some n := by
  have h : ∀ n < 256, octet? (Nat.toDigits 10 n) = some (UInt8.ofNat n) := by decide +kernel
  simpa using h n.toNat n.toNat_lt

theorem octet?_eq_none {cs : List Char} {c : Char} (hmem : c ∈ cs) (hc : Text.digitValue? 10 c = none) :
    octet? cs = none := by
  unfold octet?
  split
  · rfl
  · simp [Text.number?_eq_none hmem hc]

theorem toList_dotted (a b c d : UInt8) :
    (dotted a b c d).toList = ['.'].intercalate ([a, b, c, d].map fun n => Nat.toDigits 10 n.toNat) := by
  simp [dotted, Text.natural]

theorem splitList_dotted (a b c d : UInt8) :
    Text.splitList (· == '.') (dotted a b c d).toList = [a, b, c, d].map fun n => Nat.toDigits 10 n.toNat := by
  rw [toList_dotted]
  refine Text.splitList_intercalate ?_ (by simp)
  intro part hpart
  obtain ⟨n, -, rfl⟩ := List.mem_map.1 hpart
  exact Text.not_mem_toDigits (by decide) (by decide) (by decide) n.toNat

theorem octets?_dotted (a b c d : UInt8) : octets? (dotted a b c d).toList = some (a, b, c, d) := by
  simp [octets?, splitList_dotted, octet?_toDigits]

theorem not_mem_dotted {x : Char} (hpoint : (x == '.') = false) (hdigit : Text.digitValue? 10 x = none)
    (a b c d : UInt8) : x ∉ (dotted a b c d).toList := by
  intro hmem
  obtain ⟨part, hpart, hmem⟩ := Text.exists_mem_splitList (p := (· == '.')) hpoint hmem
  rw [splitList_dotted] at hpart
  obtain ⟨n, -, rfl⟩ := List.mem_map.1 hpart
  exact Text.not_mem_toDigits (by decide) (by decide) hdigit n.toNat hmem

theorem colon_not_mem_dotted (a b c d : UInt8) : ':' ∉ (dotted a b c d).toList :=
  not_mem_dotted (by decide) (by decide) a b c d

theorem octets?_eq_none {cs : List Char} (hmem : ':' ∈ cs) : octets? cs = none := by
  obtain ⟨part, hpart, hmem⟩ := Text.exists_mem_splitList (p := (· == '.')) (by decide) hmem
  have hnone := mapM_eq_none hpart (octet?_eq_none hmem (by decide))
  simp [octets?, hnone]

def digits (g : UInt16) : List Char := Nat.toDigits 16 g.toNat

theorem digits_ne_nil (g : UInt16) : digits g ≠ [] := Nat.toDigits_ne_nil

theorem colon_not_mem_digits (g : UInt16) : ':' ∉ digits g :=
  Text.not_mem_toDigits (by decide) (by decide) (by decide) g.toNat

theorem group?_digits (g : UInt16) : group? (digits g) = some g := by
  have hlength : ¬4 < (digits g).length := by
    have hlt : g.toNat < 16 ^ 4 := g.toNat_lt
    exact Nat.not_lt.2 ((Nat.length_toDigits_le_iff (by decide) (by decide)).2 hlt)
  rw [group?, if_neg hlength, digits, Text.number?_toDigits (by decide) (by decide)]
  simp

theorem toList_colons (l : List UInt16) : (colons l).toList = [':'].intercalate (l.map digits) := by
  have hdigits (g : UInt16) : (Text.hexadecimal 1 g.toNat).toList = digits g := by
    have hlength : 0 < (digits g).length := List.length_pos_iff.2 (digits_ne_nil g)
    have hnone : 1 - (digits g).length = 0 := by omega
    unfold digits at hnone ⊢
    simp [Text.hexadecimal, hnone]
  simp [colons, String.toList_intercalate, Function.comp_def, hdigits]

theorem groupsOfParts?_digits (dotted : Bool) (l : List UInt16) : groupsOfParts? dotted (l.map digits) = some l := by
  induction l with
  | nil => rfl
  | cons g l ih =>
    cases l with
    | nil => simp [groupsOfParts?, group?_digits]
    | cons h l =>
      rw [List.map_cons] at ih
      simp [groupsOfParts?, group?_digits, ih]

theorem groups?_colons (dotted : Bool) (l : List UInt16) : groups? dotted (colons l).toList = some l := by
  rw [toList_colons]
  cases l with
  | nil => rfl
  | cons g l =>
    have hne : ([':'].intercalate ((g :: l).map digits)).isEmpty = false := by
      cases l <;> simp [digits_ne_nil]
    have hparts : ∀ part ∈ (g :: l).map digits, ':' ∉ part := by
      intro part hpart
      obtain ⟨g, -, rfl⟩ := List.mem_map.1 hpart
      exact colon_not_mem_digits g
    rw [groups?, hne, Text.splitList_intercalate hparts (by simp), groupsOfParts?_digits]
    rfl

theorem splitGap?_append {part : List Char} (h : ':' ∉ part) (r : List Char) :
    splitGap? (part ++ r) = (splitGap? r).map fun e => (part ++ e.1, e.2) := by
  induction part with
  | nil => simp
  | cons c part ih =>
    have hc : c ≠ ':' := fun hc => h (hc ▸ List.mem_cons_self)
    have hrest := ih fun hmem => h (List.mem_cons_of_mem c hmem)
    rw [List.cons_append, splitGap?, hrest, Option.map_map]
    · rfl
    · intro r' hr
      simp [hc] at hr

theorem splitGap?_colon {r : List Char} (h : r.head? ≠ some ':') :
    splitGap? (':' :: r) = (splitGap? r).map fun e => (':' :: e.1, e.2) := by
  rw [splitGap?]
  rintro r' - rfl
  exact h rfl

theorem splitGap?_colons (l : List UInt16) (r : List Char) :
    splitGap? ((colons l).toList ++ r) = (splitGap? r).map fun e => ((colons l).toList ++ e.1, e.2) := by
  rw [toList_colons]
  induction l with
  | nil => simp
  | cons g l ih =>
    cases l with
    | nil => simpa using splitGap?_append (colon_not_mem_digits g) r
    | cons h l =>
      have hhead : ([':'].intercalate ((h :: l).map digits) ++ r).head? ≠ some ':' := by
        obtain ⟨c, cs, hdigits⟩ := List.exists_cons_of_ne_nil (digits_ne_nil h)
        have hc : c ≠ ':' := fun hc => colon_not_mem_digits h (by simp [hdigits, hc])
        cases l <;> simp [hdigits, hc]
      have hsplit : [':'].intercalate ((g :: h :: l).map digits) =
          digits g ++ ':' :: [':'].intercalate ((h :: l).map digits) := by
        simp
      rw [hsplit, List.append_assoc, List.cons_append, splitGap?_append (colon_not_mem_digits g),
        splitGap?_colon hhead, ih, Option.map_map, Option.map_map]
      simp [Function.comp_def]

theorem longestGap_spec (l : List UInt16) : (longestGap l).1 + (longestGap l).2 ≤ l.length ∧
    l = l.take (longestGap l).1 ++ List.replicate (longestGap l).2 0 ++ l.drop ((longestGap l).1 + (longestGap l).2) := by
  induction l with
  | nil => exact ⟨Nat.le_refl 0, rfl⟩
  | cons g l ih =>
    simp only [longestGap]
    split
    · have hfirst : (g :: l).takeWhile (· = 0) <+: g :: l := List.takeWhile_prefix _
      have hzeros : (g :: l).takeWhile (· = 0) = List.replicate (zerosAhead (g :: l)) 0 :=
        List.eq_replicate_iff.2 ⟨rfl, fun h hmem => of_decide_eq_true (List.all_eq_true.1 List.all_takeWhile h hmem)⟩
      rw [Nat.zero_add, List.take_zero, List.nil_append, ← hzeros]
      exact ⟨hfirst.length_le, (List.prefix_iff_eq_append.1 hfirst).symm⟩
    · obtain ⟨hle, hl⟩ := ih
      refine ⟨by simp; omega, ?_⟩
      rw [List.take_succ_cons, Nat.add_right_comm, List.drop_succ_cons, List.cons_append, List.cons_append, ← hl]

theorem pairOf_halves (g : UInt16) : pairOf (UInt8.ofNat (g.toNat / 256)) (UInt8.ofNat (g.toNat % 256)) = g := by
  have hlt : g.toNat < 65536 := g.toNat_lt
  refine UInt16.toNat_inj.1 ?_
  simp [pairOf]
  omega

theorem group?_dotted (a b c d : UInt8) : group? (dotted a b c d).toList = none := by
  have hmem : '.' ∈ (dotted a b c d).toList := by simp [toList_dotted]
  unfold group?
  split
  · rfl
  · rw [Text.number?_eq_none hmem (by decide), Option.map_none]

/-- The spelling of an address that stands in for an old one ends with four decimal numbers. -/
theorem groups?_mapped (x y : UInt16) :
    let high (g : UInt16) := UInt8.ofNat (g.toNat / 256)
    let low (g : UInt16) := UInt8.ofNat (g.toNat % 256)
    groups? true ("ffff:" ++ dotted (high x) (low x) (high y) (low y)).toList = some [0xffff, x, y] := by
  intro high low
  have hcolon : ∀ part ∈ ["ffff".toList, (dotted (high x) (low x) (high y) (low y)).toList], ':' ∉ part := by
    simp [colon_not_mem_dotted]
  have hsplit : Text.splitList (· == ':') ("ffff:" ++ dotted (high x) (low x) (high y) (low y)).toList =
      ["ffff".toList, (dotted (high x) (low x) (high y) (low y)).toList] := by
    simpa using Text.splitList_intercalate hcolon (List.cons_ne_nil _ _)
  have hfront : group? "ffff".toList = some 0xffff := by decide
  have hback : groupsOfParts? true [(dotted (high x) (low x) (high y) (low y)).toList] = some [x, y] := by
    simp [groupsOfParts?, group?_dotted, octets?_dotted, high, low, pairOf_halves]
  rw [groups?, if_neg (by simp), hsplit, groupsOfParts?, hfront, hback]
  · rfl
  · exact List.cons_ne_nil _ _

theorem v6?_v6Text {l : List UInt16} (h : l.length = 8) : v6? (v6Text l).toList = ofGroups? l := by
  unfold v6Text
  -- an address that stands in for an old one is spelled in a way of its own
  split
  · next x y =>
    have htext (d : String) : splitGap? ("::ffff:" ++ d).toList = some ([], ("ffff:" ++ d).toList) := by
      simp [splitGap?]
    have hfront : groups? false [] = some [] := rfl
    dsimp only
    rw [v6?, htext]
    simp only [hfront, groups?_mapped]
    rfl
  · next hmapped =>
    obtain ⟨hle, hl⟩ := longestGap_spec l
    generalize hgap : longestGap l = gap at hle hl
    obtain ⟨start, length⟩ := gap
    dsimp only at hle hl ⊢
    split
    · next hlength =>
      have htext : splitGap? (colons (l.take start) ++ "::" ++ colons (l.drop (start + length))).toList =
          some ((colons (l.take start)).toList, (colons (l.drop (start + length))).toList) := by
        rw [String.append_assoc, String.toList_append, splitGap?_colons, String.toList_append]
        simp [splitGap?]
      have hbounds : (l.take start).length + (l.drop (start + length)).length ≤ 7 := by
        simp
        omega
      have hzeros : 8 - (l.take start).length - (l.drop (start + length)).length = length := by
        simp
        omega
      rw [v6?, htext]
      simp only [groups?_colons, hzeros, Option.bind_eq_bind, Option.bind_some, if_pos hbounds, ← hl]
    · have htext : splitGap? (colons l).toList = none := by
        simpa [splitGap?] using splitGap?_colons l []
      simp [v6?, htext, groups?_colons]

theorem colon_mem_v6Text {l : List UInt16} (h : l.length = 8) : ':' ∈ (v6Text l).toList := by
  unfold v6Text
  split
  · simp
  · dsimp only
    split
    · simp
    · rw [toList_colons]
      match l, h with
      | g :: g' :: l, _ => simp

/-- An address is read back from the way it is spelled. -/
theorem parse?_text (a : Address) : parse? a.text = some a := by
  cases a with
  | v4 a b c d => simp [parse?, text, octets?_dotted]
  | v6 groups =>
    have hlength : groups.toList.length = 8 := by simp
    rw [parse?, text, octets?_eq_none (colon_mem_v6Text hlength), v6?_v6Text hlength]
    simp [ofGroups?, Vector.toList]

theorem text_injective {a b : Address} (h : a.text = b.text) : a = b := by
  have hparsed := congrArg parse? h
  rw [parse?_text, parse?_text] at hparsed
  exact Option.some.inj hparsed

end Net.Address

end RolloutControl
