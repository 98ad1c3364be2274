import Mathlib.Data.List.Dedup
import RolloutControl.Proofs.Document.Paths
import RolloutControl.Proofs.Net.Spelling
import RolloutControl.Observe.Sources
/-! The endpoints of etcd. The observer uses the addresses of all members or none of them, and nothing counts but which
addresses there are. -/

namespace RolloutControl.Observer

/-- Brackets tell the urls of new addresses from those of old ones. -/
theorem etcdUrl_v4_ne_v6 (a b c d : UInt8) (groups : Vector UInt16 8) : etcdUrl (.v4 a b c d) ≠ etcdUrl (.v6 groups) := by
  intro h
  have hmem : '[' ∈ (etcdUrl (.v6 groups)).toList := by simp [etcdUrl]
  rw [← h] at hmem
  have hnot := Net.Address.not_mem_dotted (x := '[') (by decide) (by decide) a b c d
  simp [etcdUrl, Net.Address.text, hnot] at hmem

theorem etcdUrl_injective : Function.Injective etcdUrl := by
  intro a b h
  cases a with
  | v4 =>
    cases b with
    | v4 =>
      rw [etcdUrl, etcdUrl, String.append_left_inj, String.append_right_inj] at h
      exact Net.Address.text_injective h
    | v6 => exact absurd h (etcdUrl_v4_ne_v6 _ _ _ _ _)
  | v6 =>
    cases b with
    | v4 => exact absurd h.symm (etcdUrl_v4_ne_v6 _ _ _ _ _)
    | v6 =>
      rw [etcdUrl, etcdUrl, String.append_left_inj, String.append_right_inj] at h
      exact Net.Address.text_injective h

def reading (text : String) : Option Net.Address := Net.Address.parse? (Text.trim text)

/-- A config map gives this text for the address of a member. -/
inductive Gives (cm : ConfigMap) (member text : String) : Prop
  | listed (h : (cm.data.getD ∅).get? member = some text)
  | bootstrap (hmember : member = bootstrapMark) (h : (cm.metadata.annotations.getD ∅).get? bootstrapMark = some text)

/-- A member is found with this address, or with none that can be read. -/
def Reads (cm : ConfigMap) (found : Option Net.Address) : Prop :=
  ∃ member text, Gives cm member text ∧ reading text = found

/-- The addresses of members that are not there yet. -/
def Reserved (a : Net.Address) : Prop := ∃ d, a = .v4 192 0 2 d

/-- A member is really there, at this address. -/
def Serves (cm : ConfigMap) (a : Net.Address) : Prop := Reads cm (some a) ∧ ¬Reserved a

variable {cm : ConfigMap}

theorem isPlaceholder_iff {a : Net.Address} : a.isPlaceholder = true ↔ Reserved a := by
  unfold Net.Address.isPlaceholder
  split
  · next d => exact iff_of_true rfl ⟨d, rfl⟩
  · next h => exact iff_of_false Bool.false_ne_true fun ⟨d, hd⟩ => h d hd

theorem mem_members {m : String × String} : m ∈ members cm ↔ Gives cm m.1 m.2 := by
  rw [members, List.mem_append, Dict.mem_entries_iff]
  constructor
  · rintro (h | h)
    · exact .listed h
    · obtain ⟨text, htext, rfl⟩ := Option.map_eq_some_iff.1 (Option.mem_toList.1 h)
      exact .bootstrap rfl htext
  · rintro (h | ⟨hmember, h⟩)
    · exact .inl h
    · refine .inr (Option.mem_toList.2 (Option.map_eq_some_iff.2 ⟨m.2, h, ?_⟩))
      exact Prod.ext hmember.symm rfl

/-- The members whose addresses cannot be read. -/
def unreadable (cm : ConfigMap) : List (String × String) := (members cm).filter fun m => reading m.2 = none

theorem badAddresses_members (cm : ConfigMap) (name : String) :
    badAddresses name (members cm) = (unreadable cm).map fun m => .object (.badAddress name m.1 m.2) := by
  rw [badAddresses, unreadable, ← List.filterMap_eq_map, List.filterMap_filter]
  refine List.filterMap_congr fun m _ => ?_
  unfold address reading
  cases Net.Address.parse? (Text.trim m.2) <;> simp

theorem mem_unreadable {m : String × String} : m ∈ unreadable cm ↔ Gives cm m.1 m.2 ∧ reading m.2 = none := by
  rw [unreadable, List.mem_filter, mem_members, decide_eq_true_iff]

theorem unreadable_eq_nil_iff : unreadable cm = [] ↔ ¬Reads cm none := by
  rw [List.eq_nil_iff_forall_not_mem]
  constructor
  · rintro h ⟨member, text, hgives⟩
    exact h (member, text) (mem_unreadable.2 hgives)
  · intro h m hm
    exact h ⟨m.1, m.2, mem_unreadable.1 hm⟩

theorem mem_goodAddresses (name : String) {a : Net.Address} :
    a ∈ goodAddresses name (members cm) ↔ Serves cm a := by
  have haddress (m : String × String) :
      (address name m).toOption.filter (fun a => !a.isPlaceholder) = some a ↔ reading m.2 = some a ∧ ¬Reserved a := by
    rw [← isPlaceholder_iff]
    unfold address reading
    cases Net.Address.parse? (Text.trim m.2) with
    | none => simp [Except.toOption]
    | some b => simp [Except.toOption, Option.filter_eq_some_iff]
  rw [goodAddresses, List.mem_filterMap]
  simp only [haddress, mem_members]
  constructor
  · rintro ⟨m, hgives, hreading, hreserved⟩
    exact ⟨⟨m.1, m.2, hgives, hreading⟩, hreserved⟩
  · rintro ⟨⟨member, text, hgives, hreading⟩, hreserved⟩
    exact ⟨(member, text), hgives, hreading, hreserved⟩

/-- The urls of all members that are there, each once, in ascending order. -/
structure Urls (cm : ConfigMap) (urls : List String) : Prop where
  ascending : urls.Pairwise (· < ·)
  perm : ∃ addresses : List Net.Address, addresses.Nodup ∧ (∀ a, a ∈ addresses ↔ Serves cm a) ∧
    urls.Perm (addresses.map etcdUrl)

theorem urls_goodAddresses (cm : ConfigMap) (name : String) :
    Urls cm (ascending ((goodAddresses name (members cm)).map etcdUrl)) where
  ascending := pairwise_ascending _
  perm := by
    let addresses := (goodAddresses name (members cm)).dedup
    have hnodup : addresses.Nodup := List.nodup_dedup _
    have hsorted := pairwise_ascending ((goodAddresses name (members cm)).map etcdUrl)
    have hdistinct := hsorted.imp fun {a b} (h : a < b) (he : a = b) => KeyOrder.irrefl b (he ▸ h)
    refine ⟨addresses, hnodup, fun a => List.mem_dedup.trans (mem_goodAddresses name), ?_⟩
    rw [List.perm_ext_iff_of_nodup hdistinct (hnodup.map etcdUrl_injective)]
    intro url
    simp [addresses]

theorem urls_congr {cm' : ConfigMap} (h : ∀ a, Serves cm a ↔ Serves cm' a) (name name' : String) :
    ascending ((goodAddresses name (members cm)).map etcdUrl) =
      ascending ((goodAddresses name' (members cm')).map etcdUrl) :=
  ascending_congr fun url => by simp only [List.mem_map, mem_goodAddresses, h]

def SameAddresses (cm cm' : ConfigMap) : Prop := ∀ found, Reads cm found ↔ Reads cm' found

variable {facts facts' : Facts} {cm' : ConfigMap}

def endpoints? (facts : Facts) : Option ConfigMap :=
  facts.view.configMap? facts.settings.objects.etcdSpace facts.settings.objects.etcdEndpoints

theorem observe_of_unreadable (hcm : endpoints? facts = some cm) (h : Reads cm none) (existing : Document) :
    etcd.observe facts existing = .keep existing [storageUrls] ((unreadable cm).map fun m =>
      .object (.badAddress facts.settings.objects.etcdEndpoints m.1 m.2)) [] := by
  have hbad := badAddresses_members cm facts.settings.objects.etcdEndpoints
  have hne : unreadable cm ≠ [] := fun hnil => unreadable_eq_nil_iff.1 hnil h
  unfold endpoints? at hcm
  simp only [etcd, hcm, hbad]
  simp [hne]

theorem observe_of_vacant (hcm : endpoints? facts = some cm) (hall : ¬Reads cm none) (h : ∀ a, ¬Serves cm a)
    (existing : Document) :
    let e : Error := .object (.noAddresses facts.settings.objects.etcdEndpoints)
    etcd.observe facts existing = .keep existing [storageUrls] [e] [.warning "ObserveStorageFailed" e.message] := by
  have hbad := badAddresses_members cm facts.settings.objects.etcdEndpoints
  rw [unreadable_eq_nil_iff.2 hall] at hbad
  have hgood : goodAddresses facts.settings.objects.etcdEndpoints (members cm) = [] :=
    List.eq_nil_iff_forall_not_mem.2 fun a ha => h a ((mem_goodAddresses _).1 ha)
  unfold endpoints? at hcm
  simp only [etcd, hcm, hbad, hgood]
  rfl

theorem observe_of_serves (hcm : endpoints? facts = some cm) (hall : ¬Reads cm none) (h : ∃ a, Serves cm a)
    (existing : Document) :
    let observed := Document.setStrings ∅ storageUrls
      (ascending ((goodAddresses facts.settings.objects.etcdEndpoints (members cm)).map etcdUrl))
    etcd.observe facts existing =
      { config := observed, events := changeEvents "ObserveStorageUpdated" existing observed storageUrls } := by
  have hbad := badAddresses_members cm facts.settings.objects.etcdEndpoints
  rw [unreadable_eq_nil_iff.2 hall] at hbad
  obtain ⟨a, ha⟩ := h
  have hmem := (mem_goodAddresses facts.settings.objects.etcdEndpoints).2 ha
  obtain ⟨b, l, hgood⟩ := List.exists_cons_of_ne_nil (List.ne_nil_of_mem hmem)
  unfold endpoints? at hcm
  simp only [etcd, hcm, hbad, hgood]
  rfl

theorem get?_storageUrls (urls : List String) :
    (Document.setStrings ∅ storageUrls urls).get? storageUrls = some (Json.strings urls) := by
  have hitems (l : List String) : Json.normalizeItems (l.map .str) = l.map .str := by
    induction l with
    | nil => rfl
    | cons x l ih => simp [Json.normalizeItems, Json.normalize, ih]
  have hne : storageUrls ≠ [] := List.cons_ne_nil _ _
  rw [Document.setStrings, Document.get?_set_self ∅ hne, Json.strings, Json.normalize, hitems]

/-- Config maps with the same addresses are observed alike, whatever their members are called and wherever the addresses
are found in them. -/
theorem config_observe_congr (hcm : endpoints? facts = some cm) (hcm' : endpoints? facts' = some cm')
    (h : SameAddresses cm cm') (existing : Document) :
    (etcd.observe facts existing).config = (etcd.observe facts' existing).config := by
  have hserves (a : Net.Address) : Serves cm a ↔ Serves cm' a := and_congr_left fun _ => h (some a)
  by_cases hall : Reads cm none
  · rw [observe_of_unreadable hcm hall, observe_of_unreadable hcm' ((h none).1 hall)]
    rfl
  · have hall' : ¬Reads cm' none := fun hnone => hall ((h none).2 hnone)
    by_cases hserved : ∃ a, Serves cm a
    · have hserved' : ∃ a, Serves cm' a := hserved.imp fun a => (hserves a).1
      rw [observe_of_serves hcm hall hserved, observe_of_serves hcm' hall' hserved']
      exact congrArg (Document.setStrings ∅ storageUrls) (urls_congr hserves _ _)
    · have hvacant : ∀ a, ¬Serves cm a := not_exists.1 hserved
      have hvacant' : ∀ a, ¬Serves cm' a := fun a ha => hvacant a ((hserves a).2 ha)
      rw [observe_of_vacant hcm hall hvacant, observe_of_vacant hcm' hall' hvacant']
      rfl

/-- How the endpoints are observed. -/
structure AllOrNothing (facts : Facts) (cm : ConfigMap) : Prop where
  /-- One address that cannot be read is enough to keep what the document holds, and there is an error for each. -/
  spoilt : Reads cm none → ∀ existing, etcd.observe facts existing =
    .keep existing [storageUrls] ((unreadable cm).map fun m =>
      .object (.badAddress facts.settings.objects.etcdEndpoints m.1 m.2)) []
  vacant : ¬Reads cm none → (∀ a, Reads cm (some a) → Reserved a) → ∀ existing,
    let e : Error := .object (.noAddresses facts.settings.objects.etcdEndpoints)
    etcd.observe facts existing = .keep existing [storageUrls] [e] [.warning "ObserveStorageFailed" e.message]
  served : ¬Reads cm none → (∃ a, Serves cm a) → ∃ urls, Urls cm urls ∧ ∀ existing,
    let observation := etcd.observe facts existing
    observation.config = Document.setStrings ∅ storageUrls urls ∧
      observation.config.get? storageUrls = some (Json.strings urls) ∧ observation.errors = []
  alike : ∀ facts' cm', endpoints? facts' = some cm' → SameAddresses cm cm' → ∀ existing,
    (etcd.observe facts existing).config = (etcd.observe facts' existing).config

theorem etcd_all_or_nothing (hcm : endpoints? facts = some cm) : AllOrNothing facts cm where
  spoilt h existing := observe_of_unreadable hcm h existing
  vacant hall h existing := observe_of_vacant hcm hall (fun a ha => ha.2 (h a ha.1)) existing
  served hall h := by
    refine ⟨_, urls_goodAddresses cm facts.settings.objects.etcdEndpoints, fun existing => ?_⟩
    rw [observe_of_serves hcm hall h existing]
    exact ⟨rfl, get?_storageUrls _, rfl⟩
  alike _ _ hcm' h existing := config_observe_congr hcm hcm' h existing

/-- Two members share an address, and one of the others is not there yet. -/
def sharedEndpoints : ConfigMap where
  metadata :=
    { name := some "etcd-endpoints", space := some "openshift-etcd"
      annotations := some (Dict.ofList [(bootstrapMark, "FD00:0::1")]) }
  data := some (Dict.ofList [("a", " fd00::1"), ("b", "192.0.2.7"), ("c", "10.0.0.3")])

def sharedFacts : Facts where
  view := { configMaps := Cache.ofObjects [sharedEndpoints] }
  settings := {}

theorem etcd_all_or_nothing_shared :
    endpoints? sharedFacts = some sharedEndpoints ∧ AllOrNothing sharedFacts sharedEndpoints ∧
      (etcd.observe sharedFacts ∅).config.get? storageUrls =
        some (Json.strings ["https://10.0.0.3:2379", "https://[fd00::1]:2379"]) :=
  have hcm : endpoints? sharedFacts = some sharedEndpoints := by decide +kernel
  ⟨hcm, etcd_all_or_nothing hcm, by decide +kernel⟩

end RolloutControl.Observer
