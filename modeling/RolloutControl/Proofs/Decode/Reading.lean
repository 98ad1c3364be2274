import Mathlib.Data.List.Nodup
import RolloutControl.Cluster.Metadata
/-! What readers make of the JSON form of a value, and what may be expected of a value that was read, from whatever text. -/

namespace RolloutControl

namespace Json

theorem map_fst_present_sublist (l : List (String × Option Json)) :
    ((present l).map (·.1)).Sublist (l.map (·.1)) := by
  induction l with
  | nil => exact .slnil
  | cons e l ih =>
    obtain ⟨k, o⟩ := e
    cases o with
    | none => exact ih.cons k
    | some j => exact ih.cons_cons k

theorem lookup_present {l : List (String × Option Json)} (h : (l.map (·.1)).Nodup) (k : String) :
    Assoc.lookup k (present l) = (Assoc.lookup k l).join := by
  induction l with
  | nil => rfl
  | cons e l ih =>
    obtain ⟨name, o⟩ := e
    obtain ⟨hname, hl⟩ := List.nodup_cons.1 h
    have hrest := ih hl
    by_cases hk : k = name
    · have hnone : Assoc.lookup name (present l) = none := by
        refine Assoc.lookup_eq_none.2 fun e he heq => hname ?_
        exact (map_fst_present_sublist l).subset (heq ▸ List.mem_map_of_mem he)
      subst hk
      cases o with
      | none => simpa [present, Assoc.lookup_cons] using hnone
      | some j => simp [present, Assoc.lookup_cons]
    · cases o with
      | none => simpa [present, Assoc.lookup_cons, hk] using hrest
      | some j => simpa [present, Assoc.lookup_cons, hk] using hrest

end Json

namespace Tree

variable {α β : Type} {t : Tree} {n : Int} {type : IntegerType}

@[simp] theorem itself_ofJson (j : Json) : (ofJson j).itself = pure (ofJson j) := by cases j <;> rfl

@[simp] theorem string_str (s : String) : (ofJson (.str s)).string = pure s := rfl

@[simp] theorem list_arr (f : Tree → Decoding α) (items : List Json) :
    (ofJson (.arr items)).list f = (ofItems items).mapM f := rfl

theorem ofItems_eq_map (items : List Json) : ofItems items = items.map ofJson := by
  induction items with
  | nil => rfl
  | cons j items ih => rw [ofItems, ih, List.map_cons]

theorem list_ofJson {f : Tree → Decoding α} {write : α → Json} {l : List α}
    (h : ∀ a ∈ l, f (ofJson (write a)) = pure a) : (ofJson (.arr (l.map write))).list f = pure l := by
  rw [list_arr, ofItems_eq_map]
  induction l with
  | nil => rfl
  | cons a l ih =>
    obtain ⟨ha, hl⟩ := List.forall_mem_cons.1 h
    rw [List.map_cons, List.map_cons, List.mapM_cons, ha, ih hl, pure_bind, pure_bind]

def IntegerType.Holds (type : IntegerType) (n : Int) : Prop := type.least ≤ n ∧ n ≤ type.greatest

instance (type : IntegerType) (n : Int) : Decidable (type.Holds n) :=
  inferInstanceAs (Decidable (type.least ≤ n ∧ n ≤ type.greatest))

theorem integer_int (h : type.Holds n) : (ofJson (.int n)).integer type = pure n := by
  rw [integer, itself_ofJson, pure_bind]
  exact if_pos h

mutual

/-- Any value is read back, with the keys of its objects in order. -/
theorem json_ofJson : (j : Json) → (ofJson j).json = pure j.normalize
  | .null | .bool _ | .int _ | .decimal _ | .str _ => rfl
  | .arr items => by simp [ofJson, json, jsonItems_ofItems items, Json.normalize]
  | .obj fields => by simp [ofJson, json, jsonFields_ofFields fields, Json.normalize, Json.object]

theorem jsonItems_ofItems : (l : List Json) → jsonItems (ofItems l) = pure (Json.normalizeItems l)
  | [] => rfl
  | j :: l => by simp [ofItems, jsonItems, json_ofJson j, jsonItems_ofItems l, Json.normalizeItems]

theorem jsonFields_ofFields : (l : List (String × Json)) → jsonFields (ofFields l) = pure (Json.normalizeFields l)
  | [] => rfl
  | (k, j) :: l => by
    have hkey : (Tree.str k).string = pure k := rfl
    simp [ofFields, jsonFields, hkey, json_ofJson j, jsonFields_ofFields l, Json.normalizeFields]

end

theorem json_of_canonical {j : Json} (h : j.Canonical) : (ofJson j).json = pure j := by
  rw [json_ofJson, Json.normalize_of_canonical j h]

theorem entries_ofFields (fs : Fields) :
    entries (ofFields fs) = pure (fs.map fun e => (e.1, ofJson e.2)) := by
  unfold entries
  induction fs with
  | nil => rfl
  | cons e fs ih =>
    have hkey : (Tree.str e.1).string = pure e.1 := rfl
    rw [ofFields, List.mapM_cons, ih]
    simp only [hkey, pure_bind, List.map_cons]

theorem record_obj {fs : Fields} (h : Assoc.Ascending fs) (name : String) (fields : List String) :
    (ofJson (.obj fs)).record name fields =
      pure ((fs.map fun e => (e.1, ofJson e.2)).filter fun e => fields.contains e.1) := by
  obtain ⟨known, hknown⟩ : ∃ known,
      ((fs.map fun e => (e.1, ofJson e.2)).filter fun e => fields.contains e.1) = known := ⟨_, rfl⟩
  have hdistinct : (known.map (·.1)).Nodup := by
    have hkeys : ((fs.map fun e => (e.1, ofJson e.2)).map (·.1)).Nodup := by
      rw [List.map_map]
      exact Assoc.nodup_of_ascending h
    exact hknown ▸ hkeys.sublist (List.filter_sublist.map _)
  have honce : known.find? (fun e => 1 < known.countP fun d => d.1 == e.1) = none := by
    refine List.find?_eq_none.2 fun e _ hmany => ?_
    have hcount : known.countP (fun d => d.1 == e.1) ≤ 1 := by
      have hle := List.nodup_iff_count_le_one.1 hdistinct e.1
      rwa [List.count_eq_countP, List.countP_map] at hle
    exact absurd (of_decide_eq_true hmany) (Nat.not_lt.2 hcount)
  rw [record, itself_ofJson, pure_bind]
  simp only [ofJson, entries_ofFields, pure_bind, hknown, honce]

/-- The fields of a record are those of a list. -/
def Reads (es : List (String × Tree)) (l : List (String × Option Json)) : Prop :=
  ∀ k o, Assoc.lookup k l = some o → Assoc.lookup k es = o.map ofJson

theorem exists_reads {l : List (String × Option Json)} {fields : List String} (hnames : l.map (·.1) = fields)
    (hdistinct : fields.Nodup) (name : String) :
    ∃ es, (ofJson (Json.object (Json.present l))).record name fields = pure es ∧ Reads es l := by
  refine ⟨_, record_obj (Assoc.ascending_ofList _) name fields, fun k o ho => ?_⟩
  have hk : fields.contains k = true := by
    rw [List.contains_iff_mem, ← hnames]
    exact List.mem_map_of_mem (Assoc.mem_of_lookup ho)
  have hpresent : ((Json.present l).map (·.1)).Nodup := (Json.map_fst_present_sublist l).nodup (hnames ▸ hdistinct)
  rw [Assoc.lookup_filter hk, Assoc.lookup_map, Assoc.lookup_ofList_of_nodup hpresent,
    Json.lookup_present (hnames ▸ hdistinct), ho, Option.join_some]

section Reads
variable {es : List (String × Tree)} {l : List (String × Option Json)} {f : Tree → Decoding α} {a : α}

theorem Reads.required {j : Json} (h : Reads es l) (name : String) (hl : Assoc.lookup name l = some (some j))
    (hf : f (ofJson j) = pure a) : Tree.required es name f = pure a := by
  rw [Tree.required, h name (some j) hl]
  exact hf

theorem Reads.withDefault {o : Option Json} {default : α} (h : Reads es l) (name : String)
    (hl : Assoc.lookup name l = some o) (hsome : ∀ j, o = some j → f (ofJson j) = pure a)
    (hnone : o = none → default = a) : Tree.withDefault es name default f = pure a := by
  rw [Tree.withDefault, h name o hl]
  cases o with
  | none => exact congrArg pure (hnone rfl)
  | some j => exact hsome j rfl

theorem Reads.present {j : Json} (h : Reads es l) (name : String) (default : α)
    (hl : Assoc.lookup name l = some (some j)) (hf : f (ofJson j) = pure a) :
    Tree.withDefault es name default f = pure a := by
  rw [Tree.withDefault, h name (some j) hl]
  exact hf

theorem Reads.unlessEmpty {s : String} (h : Reads es l) (name : String)
    (hl : Assoc.lookup name l = some (if s = "" then none else some (.str s))) :
    Tree.withDefault es name "" Tree.string = pure s := by
  by_cases hs : s = ""
  · rw [if_pos hs] at hl
    exact h.withDefault name hl (fun j hj => by cases hj) fun _ => hs.symm
  · rw [if_neg hs] at hl
    exact h.present name "" hl (string_str s)

theorem Reads.field {write : α → String} {o : Option α} (h : Reads es l) (name : String)
    (hl : Assoc.lookup name l = some (o.map fun a => .str (write a)))
    (hf : ∀ a, o = some a → f (ofJson (.str (write a))) = pure a) : Tree.field es name f = pure o := by
  cases o with
  | none => exact h.withDefault name hl (fun j hj => by cases hj) fun _ => rfl
  | some a =>
    have hoptional : optional f (ofJson (.str (write a))) = some <$> f (ofJson (.str (write a))) := rfl
    exact h.present name none hl (by rw [hoptional, hf a rfl, map_pure])

end Reads

/-- Whatever a reader gives has this property. -/
def Yields (x : Decoding α) (P : α → Prop) : Prop := ∀ n a m, x.run n = .ok (a, m) → P a

section Yields
variable {x : Decoding α} {P Q : α → Prop} {R : β → Prop}

theorem yields_any : Yields x fun _ => True := fun _ _ _ _ => trivial

theorem yields_pure {a : α} (h : P a) : Yields (pure a) P := by
  intro n b m hb
  cases hb
  exact h

theorem yields_throw (e : DecodeError) : Yields (throw e) P := by
  intro n b m hb
  cases hb

theorem Yields.bind {f : α → Decoding β} (hx : Yields x Q) (hf : ∀ a, Q a → Yields (f a) R) : Yields (x >>= f) R := by
  intro n b m hb
  rw [StateT.run_bind] at hb
  cases hrun : x.run n with
  | error e =>
    rw [hrun] at hb
    cases hb
  | ok r =>
    rw [hrun] at hb
    exact hf r.1 (hx n r.1 r.2 hrun) r.2 b m hb

theorem Yields.map_some (hx : Yields x P) : Yields (some <$> x) fun o => ∀ a, o = some a → P a := by
  rw [map_eq_pure_bind]
  refine hx.bind fun a ha => yields_pure fun b hb => ?_
  exact Option.some.inj hb ▸ ha

theorem Yields.of_decode {f : Tree → Decoding α} (h : Yields (f t) P) {a : α} (ha : t.decode f = .ok a) : P a := by
  have hmap : Except.map (·.1) ((f t).run 0) = .ok a := ha
  cases hrun : (f t).run 0 with
  | error e =>
    rw [hrun] at hmap
    cases hmap
  | ok r =>
    rw [hrun] at hmap
    exact Except.ok.inj hmap ▸ h 0 r.1 r.2 hrun

theorem yields_mapM {f : Tree → Decoding α} (h : ∀ t, Yields (f t) P) (items : List Tree) :
    Yields (items.mapM f) fun l => ∀ a ∈ l, P a := by
  induction items with
  | nil => exact yields_pure (List.forall_mem_nil P)
  | cons t items ih =>
    rw [List.mapM_cons]
    exact (h t).bind fun a ha => ih.bind fun l hl => yields_pure (List.forall_mem_cons.2 ⟨ha, hl⟩)

theorem yields_list {f : Tree → Decoding α} (h : ∀ t, Yields (f t) P) (t : Tree) :
    Yields (t.list f) fun l => ∀ a ∈ l, P a := by
  refine yields_any.bind fun t' _ => ?_
  split
  · exact yields_mapM h _
  · split
    · exact yields_pure (List.forall_mem_nil P)
    · exact yields_throw _

theorem yields_check (type : IntegerType) (n : Int) : Yields (type.check n) type.Holds := by
  unfold IntegerType.check
  split
  · next h => exact yields_pure h
  · exact yields_throw _

theorem yields_integer (type : IntegerType) (t : Tree) : Yields (t.integer type) type.Holds := by
  refine yields_any.bind fun t' _ => ?_
  split
  · exact yields_check type _
  · split
    · split
      · exact yields_throw _
      · exact yields_check type _
    · exact yields_throw _
  · exact yields_throw _

theorem yields_optional {f : Tree → Decoding α} (h : ∀ t, Yields (f t) P) (t : Tree) :
    Yields (optional f t) fun o => ∀ a, o = some a → P a := by
  have hnone : Yields (pure none) fun o => ∀ a, o = some a → P a := yields_pure fun a ha => by cases ha
  refine yields_any.bind fun t' _ => ?_
  split
  · exact hnone
  · split
    · exact hnone
    · exact (h _).map_some
    · exact yields_throw _
  · exact (h _).map_some

theorem yields_withDefault {es : List (String × Tree)} {name : String} {default : α} {f : Tree → Decoding α}
    (hdefault : P default) (h : ∀ t, Yields (f t) P) : Yields (withDefault es name default f) P := by
  unfold withDefault
  split
  · exact h _
  · exact yields_pure hdefault

theorem yields_required {es : List (String × Tree)} {name : String} {f : Tree → Decoding α}
    (h : ∀ t, Yields (f t) P) : Yields (required es name f) P := by
  unfold required
  split
  · exact h _
  · exact yields_throw _

theorem yields_field {es : List (String × Tree)} {name : String} {f : Tree → Decoding α}
    (h : ∀ t, Yields (f t) P) : Yields (field es name f) fun o => ∀ a, o = some a → P a :=
  yields_withDefault (fun a ha => by cases ha) (yields_optional h)

theorem yields_freeScalar (s : Yaml.Scalar) : Yields (freeScalar s) Json.Canonical := by
  unfold freeScalar
  split
  case h_4 n _ =>
    split
    · exact yields_pure trivial
    · exact yields_throw _
  case h_7 => exact yields_throw _
  all_goals exact yields_pure trivial

mutual

theorem yields_json : (t : Tree) → Yields t.json Json.Canonical
  | .null => yields_pure trivial
  | .bool _ => yields_pure trivial
  | .int _ => yields_pure trivial
  | .decimal _ => yields_pure trivial
  | .str _ => yields_pure trivial
  | .scalar s => yields_freeScalar s
  | .seq _ items => (yieldsItems_json items).bind fun _ hl => yields_pure hl
  | .map entries => (yieldsFields_json entries).bind fun l hl =>
    yields_pure ⟨Assoc.ascending_ofList l, Json.canonicalFields_foldl_insert l [] hl trivial⟩
  | .own _ => yields_throw _
  | .alias target => yields_any.bind fun _ _ => yields_json (target ())
  | .tooDeep => yields_throw _

theorem yieldsItems_json : (l : List Tree) → Yields (jsonItems l) Json.CanonicalItems
  | [] => yields_pure trivial
  | t :: l => (yields_json t).bind fun _ hj => (yieldsItems_json l).bind fun _ hr => yields_pure ⟨hj, hr⟩

theorem yieldsFields_json : (l : List (Tree × Tree)) → Yields (jsonFields l) Json.CanonicalFields
  | [] => yields_pure trivial
  | (_, t) :: l => yields_any.bind fun _ _ => (yields_json t).bind fun _ hj =>
    (yieldsFields_json l).bind fun _ hr => yields_pure ⟨hj, hr⟩

end

end Yields

/-- Every value that may be written is read back, and nothing but such values is ever read. -/
structure Lossless (valid : α → Prop) (write : α → Json) (read : Tree → Decoding α) : Prop where
  read_back : ∀ a, valid a → read (ofJson (write a)) = pure a
  sound : ∀ t, Yields (read t) valid

section Lossless
variable {valid : α → Prop} {write : α → Json} {read : Tree → Decoding α} {a : α}

theorem Lossless.decode_write (h : Lossless valid write read) (ha : valid a) : (write a).decode read = .ok a := by
  rw [Json.decode, decode, h.read_back a ha]
  rfl

theorem Lossless.valid_of_decode (h : Lossless valid write read) {j : Json} (hj : j.decode read = .ok a) : valid a :=
  (h.sound (ofJson j)).of_decode hj

end Lossless

end Tree

end RolloutControl
