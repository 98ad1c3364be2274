import RolloutControl.Cluster.Object
import RolloutControl.Settings.Basic
/-! Caches of cluster objects, kept current by watch events and read in the order of names. -/

namespace RolloutControl

/-- Where an object is found: its name, and its namespace if it is in one. -/
structure ObjectRef where
  name : String
  space : Option String
deriving DecidableEq, Repr, Inhabited

namespace ObjectRef

/-- No namespace comes before every namespace. -/
def spaceBefore : Option String → Option String → Bool
  | none, some _ => true
  | some a, some b => a < b
  | _, none => false

def before (a b : ObjectRef) : Bool :=
  a.name < b.name || (a.name == b.name && spaceBefore a.space b.space)

instance : LT ObjectRef := ⟨fun a b => before a b = true⟩

instance : DecidableLT ObjectRef := fun a b => inferInstanceAs (Decidable (before a b = true))

theorem lt_iff {a b : ObjectRef} :
    a < b ↔ a.name < b.name ∨ a.name = b.name ∧ spaceBefore a.space b.space = true := by
  change before a b = true ↔ _
  simp [before]

@[simp] theorem spaceBefore_none_some (b : String) : spaceBefore none (some b) = true := rfl

@[simp] theorem spaceBefore_none (a : Option String) : spaceBefore a none = false := by
  cases a <;> rfl

@[simp] theorem spaceBefore_some {a b : String} :
    spaceBefore (some a) (some b) = true ↔ a < b :=
  decide_eq_true_iff

theorem spaceBefore_trans {a b c : Option String} (h : spaceBefore a b = true)
    (h' : spaceBefore b c = true) : spaceBefore a c = true := by
  cases c with
  | none => rw [spaceBefore_none] at h'; exact absurd h' Bool.false_ne_true
  | some z =>
    cases b with
    | none => rw [spaceBefore_none] at h; exact absurd h Bool.false_ne_true
    | some y =>
      cases a with
      | none => rfl
      | some x => exact spaceBefore_some.2 (String.lt_trans (spaceBefore_some.1 h) (spaceBefore_some.1 h'))

theorem spaceBefore_connected {a b : Option String} (h : ¬spaceBefore a b = true)
    (h' : ¬spaceBefore b a = true) : a = b := by
  cases a with
  | none =>
    cases b with
    | none => rfl
    | some y => exact absurd (spaceBefore_none_some y) h
  | some x =>
    cases b with
    | none => exact absurd (spaceBefore_none_some x) h'
    | some y =>
      exact congrArg some (KeyOrder.connected (mt spaceBefore_some.2 h) (mt spaceBefore_some.2 h'))

instance : KeyOrder ObjectRef where
  irrefl a h := by
    rcases lt_iff.1 h with h | ⟨_, h⟩
    · exact String.lt_irrefl _ h
    · cases hs : a.space with
      | none => rw [hs, spaceBefore_none] at h; exact absurd h Bool.false_ne_true
      | some s => rw [hs] at h; exact String.lt_irrefl s (spaceBefore_some.1 h)
  trans {a b c} h h' := by
    rw [lt_iff] at h h' ⊢
    rcases h with h | ⟨hn, h⟩ <;> rcases h' with h' | ⟨hn', h'⟩
    · exact .inl (String.lt_trans h h')
    · exact .inl (hn' ▸ h)
    · exact .inl (hn.symm ▸ h')
    · exact .inr ⟨hn.trans hn', spaceBefore_trans h h'⟩
  connected {a b} h h' := by
    rw [lt_iff, not_or] at h h'
    have hn : a.name = b.name := KeyOrder.connected h.1 h'.1
    have hs : a.space = b.space :=
      spaceBefore_connected (fun hs => h.2 ⟨hn, hs⟩) fun hs => h'.2 ⟨hn.symm, hs⟩
    cases a; cases b; simp_all

def text (r : ObjectRef) : String :=
  match r.space with
  | some s => s ++ "/" ++ r.name
  | none => r.name

end ObjectRef

class ClusterObject (α : Type) where
  metadata : α → Metadata

instance : ClusterObject ConfigMap := ⟨ConfigMap.metadata⟩
instance : ClusterObject Secret := ⟨Secret.metadata⟩
instance : ClusterObject Pod := ⟨Pod.metadata⟩
instance : ClusterObject ApiService := ⟨ApiService.metadata⟩

def objectRef {α : Type} [ClusterObject α] (a : α) : ObjectRef :=
  ⟨(ClusterObject.metadata a).anyName, (ClusterObject.metadata a).space⟩

inductive WatchEvent (α : Type)
  | applied (a : α)
  | deleted (a : α)
  /-- The whole of what exists now. -/
  | restarted (all : List α)

abbrev Cache (α : Type) := Dict ObjectRef α

namespace WatchEvent

variable {α : Type}

def existing : WatchEvent α → List α
  | .applied a => [a]
  | .deleted _ => []
  | .restarted all => all

/-- Whether the event can matter to a loop that looks at these namespaces only. -/
def passes [ClusterObject α] (filter : SpaceFilter) : WatchEvent α → Bool
  | .applied a | .deleted a => filter.accepts (ClusterObject.metadata a).space
  | .restarted _ => true

end WatchEvent

namespace Cache

variable {α : Type} [ClusterObject α]

def ofObjects (l : List α) : Cache α := Dict.ofList (l.map fun a => (objectRef a, a))

def put (c : Cache α) (a : α) : Cache α := Dict.insert c (objectRef a) a

def apply (c : Cache α) : WatchEvent α → Cache α
  | .applied a => c.put a
  | .deleted a => Dict.erase c (objectRef a)
  | .restarted all => ofObjects all

/-- The events as they are passed on, each with the cache as it is at that moment. -/
def follow (c : Cache α) : List (WatchEvent α) → List (WatchEvent α × Cache α)
  | [] => []
  | e :: r => (e, c.apply e) :: follow (c.apply e) r

/-- The object of the reference, or else the one of that name that is in no namespace. -/
def find? (c : Cache α) (r : ObjectRef) : Option α :=
  Dict.get? c r <|> Dict.get? c ⟨r.name, none⟩

def within? (c : Cache α) (space name : String) : Option α := c.find? ⟨name, some space⟩

def list (c : Cache α) : List α := Dict.entries c |>.map (·.2)

def listIn (c : Cache α) (space : String) : List α :=
  c.list.filter fun a => (ClusterObject.metadata a).space = some space

def selects (selector : Labels) (labels : Option Labels) : Bool :=
  selector.entries.all fun e => (labels.getD ∅).get? e.1 = some e.2

def listMatching (c : Cache α) (space : String) (selector : Labels) : List α :=
  c.list.filter fun a =>
    (ClusterObject.metadata a).space = some space && selects selector (ClusterObject.metadata a).labels

end Cache

end RolloutControl
