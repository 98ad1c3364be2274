import Mathlib.Data.List.Basic
import RolloutControl.Digest.Content
/-! What the hash function is given. Every key and value stands behind its length, so the bytes can be read in one way
only, and two objects with one digest hold the same files unless the hash function collides. -/

namespace RolloutControl

namespace Sha256

@[simp] theorem length_bigEndian64 (n : Nat) : (bigEndian64 n).length = 8 := rfl

/-- Behind the higher bytes comes the next lower one. -/
theorem shiftRight_mul_add_toNat (n s : Nat) : n >>> (s + 8) * 256 + (UInt8.ofNat (n >>> s)).toNat = n >>> s := by
  rw [Nat.shiftRight_add, UInt8.toNat_ofNat', Nat.shiftRight_eq_div_pow (n >>> s)]
  exact Nat.div_add_mod' _ _

theorem foldl_bigEndian64 {n : Nat} (h : n < UInt64.size) :
    (bigEndian64 n).foldl (fun acc b => acc * 256 + b.toNat) 0 = n := by
  have hzero : 0 = n >>> 64 := by rw [Nat.shiftRight_eq_div_pow, Nat.div_eq_of_lt h]
  have hfirst : 0 * 256 + (UInt8.ofNat (n >>> 56)).toNat = n >>> 56 := by
    nth_rewrite 1 [hzero]
    exact shiftRight_mul_add_toNat n 56
  simp only [bigEndian64, List.map_cons, List.map_nil, List.foldl_cons, List.foldl_nil]
  rw [hfirst, shiftRight_mul_add_toNat n 48, shiftRight_mul_add_toNat n 40, shiftRight_mul_add_toNat n 32,
    shiftRight_mul_add_toNat n 24, shiftRight_mul_add_toNat n 16, shiftRight_mul_add_toNat n 8,
    shiftRight_mul_add_toNat n 0, Nat.shiftRight_zero]

theorem bigEndian64_injective {m n : Nat} (hm : m < UInt64.size) (hn : n < UInt64.size)
    (h : bigEndian64 m = bigEndian64 n) : m = n := by
  rw [← foldl_bigEndian64 hm, h, foldl_bigEndian64 hn]

/-- Two messages that the hash function does not tell apart. -/
def Collision (m n : List UInt8) : Prop := m ≠ n ∧ hex m = hex n

end Sha256

theorem toList_loop_append (front rest listed : List UInt8) :
    ByteArray.toList.loop ⟨(front ++ rest).toArray⟩ front.length listed = listed.reverse ++ rest := by
  induction rest generalizing front listed with
  | nil =>
    unfold ByteArray.toList.loop
    simp [ByteArray.size]
  | cons b rest ih =>
    have hstep := ih (front ++ [b]) (b :: listed)
    rw [List.append_assoc, List.singleton_append, List.length_append, List.length_singleton] at hstep
    unfold ByteArray.toList.loop
    simpa [ByteArray.size, ByteArray.get!] using hstep

theorem toList_mk (l : List UInt8) : ByteArray.toList ⟨l.toArray⟩ = l := toList_loop_append [] l []

theorem textBytes_injective {s t : String} (h : textBytes s = textBytes t) : s = t := by
  have hs := toList_mk s.toUTF8.data.toList
  have ht := toList_mk t.toUTF8.data.toList
  have hdata : s.toUTF8.data.toList = t.toUTF8.data.toList := hs.symm.trans (h.trans ht)
  exact String.toByteArray_inj.1 (ByteArray.ext (Array.toList_inj.1 hdata))

namespace Digest

/-- Eight bytes are enough for the length of every key and value. -/
def Sized (entries : List Entry) : Prop :=
  ∀ e ∈ entries, (textBytes e.1).length < UInt64.size ∧ e.2.length < UInt64.size

instance (entries : List Entry) : Decidable (Sized entries) :=
  inferInstanceAs (Decidable (∀ e ∈ entries, (textBytes e.1).length < UInt64.size ∧ e.2.length < UInt64.size))

/-- The length tells where the bytes behind it end. -/
theorem framed_append_inj {b c r s : Bytes} (hb : b.length < UInt64.size) (hc : c.length < UInt64.size)
    (h : framed b ++ r = framed c ++ s) : b = c ∧ r = s := by
  rw [framed, framed, List.append_assoc, List.append_assoc] at h
  obtain ⟨hlength, hrest⟩ := List.append_inj h rfl
  exact List.append_inj hrest (Sha256.bigEndian64_injective hb hc hlength)

theorem encode_cons (e : Entry) (r : List Entry) :
    encode (e :: r) = framed (textBytes e.1) ++ (framed e.2 ++ encode r) := by
  simp [encode]

theorem encode_cons_ne_nil (e : Entry) (r : List Entry) : encode (e :: r) ≠ [] := by
  intro h
  have hlength := congrArg List.length h
  simp [encode_cons, framed] at hlength

theorem encode_injective {l m : List Entry} (hl : Sized l) (hm : Sized m) (h : encode l = encode m) : l = m := by
  induction l generalizing m with
  | nil =>
    cases m with
    | nil => rfl
    | cons e r => exact absurd h.symm (encode_cons_ne_nil e r)
  | cons d r ih =>
    cases m with
    | nil => exact absurd h (encode_cons_ne_nil d r)
    | cons e s =>
      obtain ⟨hd, hr⟩ := List.forall_mem_cons.1 hl
      obtain ⟨he, hs⟩ := List.forall_mem_cons.1 hm
      rw [encode_cons, encode_cons] at h
      -- the lengths in front tell where the key ends, and then where the value does
      obtain ⟨hkey, hbehind⟩ := framed_append_inj hd.1 he.1 h
      obtain ⟨hvalue, hrest⟩ := framed_append_inj hd.2 he.2 hbehind
      have hentry : d = e := Prod.ext (textBytes_injective hkey) hvalue
      rw [hentry, ih hr hs hrest]

theorem encode_eq_iff {l m : List Entry} (hl : Sized l) (hm : Sized m) : encode l = encode m ↔ l = m :=
  ⟨encode_injective hl hm, congrArg encode⟩

/-- The files that entries are mounted as. Of two entries with one key the later one is seen. -/
def files (entries : List Entry) : Dict String Bytes := Dict.ofList entries

/-- One digest is the digest of the same files, or of two messages that collide. -/
theorem files_eq_or_collision {l m : List Entry} (hl : Sized l) (hm : Sized m) (h : ofEntries l = ofEntries m) :
    files l = files m ∨ Sha256.Collision (encode l) (encode m) := by
  by_cases hencode : encode l = encode m
  · exact .inl (congrArg files (encode_injective hl hm hencode))
  · exact .inr ⟨hencode, h⟩

/-- The bytes that are digested of a config map or a secret stand for its entries and for nothing else, so one digest
is the digest of the same files as long as the hash function does not collide. -/
theorem encoding_is_faithful :
    (∀ c d : ConfigMap, Sized c.digestEntries → Sized d.digestEntries →
      (encode c.digestEntries = encode d.digestEntries ↔ c.digestEntries = d.digestEntries) ∧
      (c.digest = d.digest → files c.digestEntries = files d.digestEntries ∨
        Sha256.Collision (encode c.digestEntries) (encode d.digestEntries))) ∧
    (∀ x y : Secret, Sized x.digestEntries → Sized y.digestEntries →
      (encode x.digestEntries = encode y.digestEntries ↔ x.digestEntries = y.digestEntries) ∧
      (x.digest = y.digest → files x.digestEntries = files y.digestEntries ∨
        Sha256.Collision (encode x.digestEntries) (encode y.digestEntries))) :=
  ⟨fun _ _ hc hd => ⟨encode_eq_iff hc hd, files_eq_or_collision hc hd⟩,
    fun _ _ hx hy => ⟨encode_eq_iff hx hy, files_eq_or_collision hx hy⟩⟩

def textual : ConfigMap where
  data := some (Dict.ofList [("config.yaml", "a: 1")])

def binary : ConfigMap where
  binaryData := some (Dict.ofList [("config.yaml", textBytes "a: 1")])

/-- The same letters, with the boundary between key and value in two places. -/
def early : Secret where
  stringData := some (Dict.ofList [("a", "bc")])

def late : Secret where
  stringData := some (Dict.ofList [("ab", "c")])

theorem encoding_is_faithful_boundaries :
    Sized textual.digestEntries ∧ Sized binary.digestEntries ∧ Sized early.digestEntries ∧ Sized late.digestEntries ∧
    textual.digest = binary.digest ∧
    (files textual.digestEntries = files binary.digestEntries ∨
      Sha256.Collision (encode textual.digestEntries) (encode binary.digestEntries)) ∧
    encode early.digestEntries ≠ encode late.digestEntries := by
  have htextual : Sized textual.digestEntries := by decide +kernel
  have hbinary : Sized binary.digestEntries := by decide +kernel
  have hearly : Sized early.digestEntries := by decide +kernel
  have hlate : Sized late.digestEntries := by decide +kernel
  have hdigest : textual.digest = binary.digest := rfl
  refine ⟨htextual, hbinary, hearly, hlate, hdigest, (encoding_is_faithful.1 _ _ htextual hbinary).2 hdigest, ?_⟩
  refine mt (encoding_is_faithful.2 _ _ hearly hlate).1.1 ?_
  decide +kernel

end Digest

end RolloutControl
