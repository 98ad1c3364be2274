import RolloutControl.Proofs.Text.Digits
import RolloutControl.Proofs.Time.Calendar
import RolloutControl.Time.Instant
/-! Every instant that can be spelled is read back from its spelling. -/

namespace RolloutControl

namespace Calendar

variable {width n : Nat}

theorem toList_padded (width n : Nat) : (padded width n).toList =
    List.replicate (width - (Nat.toDigits 10 n).length) '0' ++ Nat.toDigits 10 n := by
  simp [padded]

theorem length_padded (hwidth : 0 < width) (hn : n < 10 ^ width) : (padded width n).toList.length = width := by
  have hlength : (Nat.toDigits 10 n).length ≤ width := (Nat.length_toDigits_le_iff (by decide) hwidth).2 hn
  rw [toList_padded, List.length_append, List.length_replicate]
  omega

theorem isDigit_of_mem_padded {c : Char} (hc : c ∈ (padded width n).toList) : c.isDigit = true := by
  rw [toList_padded] at hc
  rcases List.mem_append.1 hc with hzero | hdigit
  · rw [List.eq_of_mem_replicate hzero]
    rfl
  · exact Nat.isDigit_of_mem_toDigits (by decide) (by decide) hdigit

theorem number?_padded (width n : Nat) : Text.number? 10 (padded width n).toList = some n := by
  rw [toList_padded, Text.number?_zeros_append (by decide) _ Nat.toDigits_ne_nil,
    Text.number?_toDigits (by decide) (by decide)]

end Calendar

namespace Instant
open Calendar (padded)

variable {width n most : Nat} {r : List Char}

theorem digits?_padded (hwidth : 0 < width) (hn : n < 10 ^ width) (hmost : n ≤ most) (r : List Char) :
    digits? width most ((padded width n).toList ++ r) = some (n, r) := by
  have hlength := Calendar.length_padded hwidth hn
  have hdigits : ∀ c ∈ (padded width n).toList, c.isDigit = true := fun c => Calendar.isDigit_of_mem_padded
  simp only [digits?, List.take_left' hlength, List.drop_left' hlength, Calendar.number?_padded, Option.bind_eq_bind,
    Option.bind_some]
  exact if_pos ⟨hlength, List.all_eq_true.2 hdigits, hmost⟩

theorem part?_padded (hwidth : n < 100) (hmost : n ≤ most) (r : List Char) :
    part? true most (':' :: ((padded 2 n).toList ++ r)) = some (some n, r) := by
  have hdigits : digits? 2 most ((padded 2 n).toList ++ r) = some (n, r) := digits?_padded (by decide) hwidth hmost r
  simp [part?, hdigits]

theorem padded_append_ne (hwidth : 0 < width) (hn : n < 10 ^ width) {c : Char} (hc : c.isDigit = false)
    (r r' : List Char) : (padded width n).toList ++ r ≠ c :: r' := by
  intro h
  have hlength := Calendar.length_padded hwidth hn
  cases htext : (padded width n).toList with
  | nil =>
    rw [htext] at hlength
    exact absurd hlength.symm (Nat.ne_of_gt hwidth)
  | cons d ds =>
    rw [htext] at h
    have hd : d.isDigit = true := Calendar.isDigit_of_mem_padded (htext ▸ List.mem_cons_self)
    rw [(List.cons.inj h).1, hc] at hd
    cases hd

theorem year?_yearText {year : Int} (hlow : -9999 ≤ year) (hhigh : year ≤ 9999) (r : List Char) :
    year? ((yearText year).toList ++ r) = some (year, r) := by
  by_cases hneg : year < 0
  · obtain ⟨n, rfl⟩ : ∃ n : Nat, year = -n := ⟨year.natAbs, by omega⟩
    have hdigits : digits? 6 9999 ((padded 6 n).toList ++ r) = some (n, r) :=
      digits?_padded (by decide) (by omega) (by omega) r
    have hpos : n ≠ 0 := by omega
    have htext : (yearText (-n)).toList = '-' :: (padded 6 n).toList := by simp [yearText, hpos, Nat.pos_of_ne_zero]
    simp [htext, year?, hdigits, hpos]
  · obtain ⟨n, rfl⟩ : ∃ n : Nat, year = n := ⟨year.natAbs, by omega⟩
    have hn : n < 10 ^ 4 := by omega
    have hdigits : digits? 4 9999 ((padded 4 n).toList ++ r) = some (n, r) :=
      digits?_padded (by decide) hn (by omega) r
    rw [yearText, if_neg hneg, Int.natAbs_natCast, year?, hdigits]
    · rfl
    · exact fun r' => padded_append_ne (by decide) hn (by decide) r r'
    · exact fun r' => padded_append_ne (by decide) hn (by decide) r r'

def fractionText (nanos : Nat) : String :=
  if nanos = 0 then ""
  else "." ++ String.ofList ((padded 9 nanos).toList.reverse.dropWhile (· == '0')).reverse

/-- Only zeros are left out at the end of a fraction. -/
theorem exists_zeros (cs : List Char) : ∃ k, cs = (cs.reverse.dropWhile (· == '0')).reverse ++ List.replicate k '0' := by
  refine ⟨(cs.reverse.takeWhile (· == '0')).length, ?_⟩
  have hzeros : cs.reverse.takeWhile (· == '0') = List.replicate (cs.reverse.takeWhile (· == '0')).length '0' :=
    List.eq_replicate_iff.2 ⟨rfl, fun c hc => eq_of_beq (List.all_eq_true.1 List.all_takeWhile c hc)⟩
  have hsplit := congrArg List.reverse (List.takeWhile_append_dropWhile (p := (· == '0')) (l := cs.reverse))
  rw [hzeros, List.reverse_append, List.reverse_replicate, List.reverse_reverse] at hsplit
  exact hsplit.symm

theorem nanosOf_of_zeros {ds : List Char} {k nanos : Nat} (hds : ds ≠ []) (hlength : ds.length + k = 9)
    (h : Text.number? 10 (ds ++ List.replicate k '0') = some nanos) : Calendar.nanosOf ds = some nanos := by
  obtain ⟨m, hm⟩ := Text.exists_number? hds h
  have hnanos : m * 10 ^ k = nanos :=
    Option.some.inj ((Text.number?_append_zeros (by decide) k hds hm).symm.trans h)
  have hk : 9 - ds.length = k := by omega
  rw [Calendar.nanosOf, hm, Option.map_some, hk, ← hnanos]
  rfl

theorem fraction?_fractionText {nanos : Nat} (h : nanos < 10 ^ 9) {c : Char} (r : List Char) (hc : c.isDigit = false)
    (hpoint : c ≠ '.' ∧ c ≠ ',') :
    fraction? ((fractionText nanos).toList ++ c :: r) = some (nanos, c :: r) := by
  unfold fractionText
  split
  · next hzero => simp [fraction?, hpoint, hzero]
  · next hne =>
    obtain ⟨ds, hds⟩ : ∃ ds, ds = ((padded 9 nanos).toList.reverse.dropWhile (· == '0')).reverse := ⟨_, rfl⟩
    obtain ⟨k, hk⟩ := exists_zeros (padded 9 nanos).toList
    rw [← hds] at hk ⊢
    have hdigits : ∀ d ∈ ds, d.isDigit = true := fun d hd =>
      Calendar.isDigit_of_mem_padded (hk ▸ List.mem_append_left _ hd)
    have hlength : ds.length + k = 9 := by
      have hlength := Calendar.length_padded (by decide) h
      rw [hk, List.length_append, List.length_replicate] at hlength
      exact hlength
    have hnumber := Calendar.number?_padded 9 nanos
    rw [hk] at hnumber
    have hne' : ds ≠ [] := by
      rintro rfl
      obtain rfl : k = 9 := by simpa using hlength
      have hzero : Text.number? 10 ([] ++ List.replicate 9 '0') = some 0 := by decide
      exact hne (Option.some.inj (hnumber.symm.trans hzero))
    have htake : ((ds ++ c :: r).takeWhile Char.isDigit).take 9 = ds := by
      rw [List.takeWhile_append_of_pos hdigits, List.takeWhile_cons_of_neg (by simp [hc]), List.append_nil,
        List.take_of_length_le (by omega)]
    simp [fraction?, htake, nanosOf_of_zeros hne' hlength hnumber]

theorem date?_text {year : Int} {month day : Nat} (h : Calendar.IsDate year month day) (hlow : -9999 ≤ year)
    (hhigh : year ≤ 9999) (r : List Char) :
    date? ((yearText year).toList ++ '-' :: ((padded 2 month).toList ++ '-' :: ((padded 2 day).toList ++ r))) =
      some ((year, month, day), r) := by
  have hmonth_le := h.month_le
  have hday_le : day ≤ 31 := h.day_le.trans (Calendar.daysInMonth_le year month)
  have hmonth : digits? 2 12 ((padded 2 month).toList ++ '-' :: ((padded 2 day).toList ++ r)) =
      some (month, '-' :: ((padded 2 day).toList ++ r)) := digits?_padded (by decide) (by omega) h.month_le _
  have hday : digits? 2 31 ((padded 2 day).toList ++ r) = some (day, r) :=
    digits?_padded (by decide) (by omega) hday_le r
  have hpos := h.month_pos
  have hpos' := h.day_pos
  have hvalid : (¬month = 0 ∧ ¬day = 0) ∧ day ≤ Calendar.daysInMonth year month := ⟨⟨by omega, by omega⟩, h.day_le⟩
  simpa [date?, year?_yearText hlow hhigh, hmonth, skip?, hday] using hvalid

/-- The sixtieth second is never spelled. -/
theorem timeOfDay?_text {rest nanos : Nat} (hrest : rest < 86400) (hnanos : nanos < 10 ^ 9) :
    timeOfDay? ((padded 2 (rest / 3600)).toList ++ ':' :: ((padded 2 (rest / 60 % 60)).toList ++
      ':' :: ((padded 2 (rest % 60)).toList ++ ((fractionText nanos).toList ++ ['Z'])))) = some (rest, nanos, ['Z']) := by
  have hhour (r : List Char) : digits? 2 23 ((padded 2 (rest / 3600)).toList ++ r) = some (rest / 3600, r) :=
    digits?_padded (by decide) (by omega) (by omega) r
  have hminute (r : List Char) : part? true 59 (':' :: ((padded 2 (rest / 60 % 60)).toList ++ r)) =
      some (some (rest / 60 % 60), r) := part?_padded (by omega) (by omega) r
  have hsecond (r : List Char) : part? true 60 (':' :: ((padded 2 (rest % 60)).toList ++ r)) =
      some (some (rest % 60), r) := part?_padded (by omega) (by omega) r
  have hfraction := fraction?_fractionText hnanos [] (by decide : 'Z'.isDigit = false) (by decide)
  have hsum : rest / 3600 * 3600 + rest / 60 % 60 * 60 + min (rest % 60) 59 = rest := by omega
  simp [timeOfDay?, hhour, hminute, hsecond, hfraction, hsum]

/-- The instants that can be spelled. -/
structure Valid (i : Instant) : Prop where
  inRange : i.isInRange = true
  nanos_lt : i.nanos < 10 ^ 9

theorem toList_text {i : Instant} {days : Int} {rest : Nat} (hdays : i.seconds.fdiv 86400 = days)
    (hrest : (i.seconds - days * 86400).toNat = rest) : i.text.toList =
      (yearText (Calendar.dateOfDays days).1).toList ++ '-' :: ((padded 2 (Calendar.dateOfDays days).2.1).toList ++
        '-' :: ((padded 2 (Calendar.dateOfDays days).2.2).toList ++ 'T' :: ((padded 2 (rest / 3600)).toList ++
          ':' :: ((padded 2 (rest / 60 % 60)).toList ++ ':' :: ((padded 2 (rest % 60)).toList ++
            ((fractionText i.nanos).toList ++ ['Z'])))))) := by
  have htext : i.text = Calendar.spell yearText (fun s => padded 2 s ++ fractionText i.nanos) i.seconds := rfl
  simp [htext, Calendar.spell, hdays, hrest]

/-- An instant is read back from the way it is spelled. -/
theorem parse?_text {i : Instant} (h : i.Valid) : parse? i.text = some i := by
  obtain ⟨days, hdays⟩ : ∃ days, i.seconds.fdiv 86400 = days := ⟨_, rfl⟩
  obtain ⟨rest, hrest⟩ : ∃ rest, (i.seconds - days * 86400).toNat = rest := ⟨_, rfl⟩
  have htext := toList_text hdays hrest
  rw [Int.fdiv_eq_ediv_of_nonneg _ (by decide)] at hdays
  have hseconds : days * 86400 + rest = i.seconds := by omega
  have hrange : -377705023201 ≤ i.seconds ∧ i.seconds ≤ 253402207200 := by simpa [isInRange] using h.inRange
  have hyear := Calendar.year_bounds (by omega : -4371586 ≤ days) (by omega)
  have hdate (r : List Char) := date?_text (Calendar.isDate_dateOfDays days) hyear.1 hyear.2 r
  have htime := timeOfDay?_text (by omega : rest < 86400) h.nanos_lt
  simp [parse?, htext, hdate, htime, offset?, annotations?, Calendar.daysOfDate_dateOfDays, hseconds, h.inRange]

/-- The end of the year before the first one. -/
example : text ⟨-62135596801, 120000000⟩ = "0000-12-31T23:59:59.12Z" := by decide

theorem nanosOf_lt {ds : List Char} {nanos : Nat} (hlength : ds.length ≤ 9) (h : Calendar.nanosOf ds = some nanos) :
    nanos < 10 ^ 9 := by
  obtain ⟨n, hn, rfl⟩ := Option.map_eq_some_iff.1 h
  calc n * 10 ^ (9 - ds.length) < 10 ^ ds.length * 10 ^ (9 - ds.length) :=
        Nat.mul_lt_mul_of_pos_right (Text.number?_lt hn) (Nat.pow_pos (by decide))
    _ = 10 ^ 9 := by rw [← Nat.pow_add, Nat.add_sub_cancel' hlength]

theorem fraction?_lt {cs r : List Char} {nanos : Nat} (h : fraction? cs = some (nanos, r)) : nanos < 10 ^ 9 := by
  unfold fraction? at h
  split at h
  · split at h
    · obtain ⟨n, hn, hpair⟩ := Option.map_eq_some_iff.1 h
      cases hpair
      exact nanosOf_lt (List.length_take_le _ _) hn
    · cases h
      decide
  · cases h
    decide

theorem timeOfDay?_lt {cs r : List Char} {time nanos : Nat} (h : timeOfDay? cs = some (time, nanos, r)) :
    nanos < 10 ^ 9 := by
  obtain ⟨⟨hour, r₁⟩, -, h⟩ := Option.bind_eq_some_iff.1 h
  obtain ⟨⟨minute, r₂⟩, -, h⟩ := Option.bind_eq_some_iff.1 h
  cases minute with
  | none =>
    cases h
    decide
  | some minute =>
    obtain ⟨⟨second, r₃⟩, -, h⟩ := Option.bind_eq_some_iff.1 h
    cases second with
    | none =>
      cases h
      decide
    | some second =>
      obtain ⟨⟨n, r₄⟩, hfraction, h⟩ := Option.bind_eq_some_iff.1 h
      cases h
      exact fraction?_lt hfraction

theorem valid_of_parse? {s : String} {i : Instant} (h : parse? s = some i) : i.Valid := by
  obtain ⟨⟨⟨year, month, day⟩, r₁⟩, -, h⟩ := Option.bind_eq_some_iff.1 h
  dsimp only at h
  -- any of three marks leads to the time of day
  split at h
  case h_4 => cases h
  all_goals
    obtain ⟨r₂, -, h⟩ := Option.bind_eq_some_iff.1 h
    obtain ⟨⟨time, nanos, r₃⟩, htime, h⟩ := Option.bind_eq_some_iff.1 h
    obtain ⟨⟨offset, r₄⟩, -, h⟩ := Option.bind_eq_some_iff.1 h
    obtain ⟨hvalid, hi⟩ := Option.ite_none_right_eq_some.1 h
    cases hi
    exact ⟨(Bool.and_eq_true_iff.1 hvalid).2, timeOfDay?_lt htime⟩

end Instant

end RolloutControl
