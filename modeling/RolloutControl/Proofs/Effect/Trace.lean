import RolloutControl.Effect.Program
/-! What a program does, call by call. A program that is put together from others does what these do,
one after the other, and a program that makes calls of some kind only makes no other ones, whatever it
is answered. -/

namespace RolloutControl

/-- A call that has been answered, between two states of the world. -/
structure Step (σ : Type) where
  call : Call
  answer : call.Answer
  before : σ
  after : σ

namespace Program

variable {α β σ : Type} (world : World σ)

def trace : Program α → σ → List (Step σ)
  | .done _, _ => []
  | .call c next, a =>
    ⟨c, (world c a).1, a, (world c a).2⟩ :: (next (world c a).1).trace (world c a).2

@[simp] theorem run_pure (x : α) (a : σ) : (pure x : Program α).run world a = (x, a) := rfl

@[simp] theorem trace_pure (x : α) (a : σ) : (pure x : Program α).trace world a = [] := rfl

@[simp] theorem run_ask (c : Call) (a : σ) : (ask c).run world a = world c a := rfl

@[simp] theorem trace_ask (c : Call) (a : σ) :
    (ask c).trace world a = [⟨c, (world c a).1, a, (world c a).2⟩] := rfl

@[simp] theorem run_bind (p : Program α) (f : α → Program β) (a : σ) :
    (p >>= f).run world a = (f (p.run world a).1).run world (p.run world a).2 := by
  change (p.bind f).run world a = _
  induction p generalizing a with
  | done x => rfl
  | call c next ih => exact ih _ _

@[simp] theorem trace_bind (p : Program α) (f : α → Program β) (a : σ) :
    (p >>= f).trace world a =
      p.trace world a ++ (f (p.run world a).1).trace world (p.run world a).2 := by
  change (p.bind f).trace world a = _
  induction p generalizing a with
  | done x => rfl
  | call c next ih => exact congrArg (List.cons _) (ih _ _)

theorem bind_assoc {γ : Type} (p : Program α) (f : α → Program β) (g : β → Program γ) :
    p >>= f >>= g = p >>= fun x => f x >>= g := by
  change (p.bind f).bind g = p.bind fun x => (f x).bind g
  induction p with
  | done x => rfl
  | call c next ih => exact congrArg (Program.call c) (funext fun x => ih x)

theorem bind_pure (p : Program α) : p >>= pure = p := by
  change p.bind .done = p
  induction p with
  | done x => rfl
  | call c next ih => exact congrArg (Program.call c) (funext ih)

theorem step_of_mem_trace {p : Program α} {a : σ} {x : Step σ} (hx : x ∈ p.trace world a) :
    x.answer = (world x.call x.before).1 ∧ x.after = (world x.call x.before).2 := by
  induction p generalizing a with
  | done y => simp [trace] at hx
  | call c next ih =>
    rcases List.mem_cons.1 hx with rfl | hx
    · exact ⟨rfl, rfl⟩
    · exact ih _ hx

/-- What every step keeps is kept by the whole program. -/
theorem run_keeps_of_trace {β : Type} {p : Program α} (f : σ → β) {a : σ}
    (h : ∀ x ∈ p.trace world a, f x.after = f x.before) : f (p.run world a).2 = f a := by
  induction p generalizing a with
  | done x => rfl
  | call c next ih =>
    obtain ⟨hfirst, hrest⟩ := List.forall_mem_cons.1 h
    exact (ih _ hrest).trans hfirst

/-- Every call that the program can make is of this kind. -/
def Uses (kind : Call → Prop) : Program α → Prop
  | .done _ => True
  | .call c next => kind c ∧ ∀ x, (next x).Uses kind

section Uses
variable {kind : Call → Prop}

theorem Uses.pure (x : α) : (pure x : Program α).Uses kind := trivial

/-- Every program makes calls of some kind. -/
theorem uses_any (p : Program α) : p.Uses fun _ => True := by
  induction p with
  | done x => trivial
  | call c next ih => exact ⟨trivial, ih⟩

theorem Uses.ask {c : Call} (h : kind c) : (Program.ask c).Uses kind := ⟨h, fun _ => trivial⟩

theorem Uses.bind {p : Program α} {f : α → Program β} (hp : p.Uses kind)
    (hf : ∀ x, (f x).Uses kind) : (p >>= f).Uses kind := by
  change (p.bind f).Uses kind
  induction p with
  | done x => exact hf x
  | call c next ih => exact ⟨hp.1, fun x => ih x (hp.2 x)⟩

theorem Uses.mono {kind' : Call → Prop} (h : ∀ c, kind c → kind' c) {p : Program α} (hp : p.Uses kind) :
    p.Uses kind' := by
  induction p with
  | done x => trivial
  | call c next ih => exact ⟨h c hp.1, fun x => ih x (hp.2 x)⟩

theorem Uses.mem_trace {p : Program α} (hp : p.Uses kind) {a : σ} {x : Step σ}
    (hx : x ∈ p.trace world a) : kind x.call := by
  induction p generalizing a with
  | done x => simp [trace] at hx
  | call c next ih =>
    rcases List.mem_cons.1 hx with rfl | hx
    · exact hp.1
    · exact ih _ (hp.2 _) hx

variable {P : σ → Prop} (hkept : ∀ c a, kind c → P a → P (world c a).2)

include hkept

/-- What every call of the kind keeps true stays true. -/
theorem Uses.run_preserves {p : Program α} (hp : p.Uses kind) {a : σ} (ha : P a) : P (p.run world a).2 := by
  induction p generalizing a with
  | done x => exact ha
  | call c next ih => exact ih _ (hp.2 _) (hkept c a hp.1 ha)

theorem Uses.before_of_mem {p : Program α} (hp : p.Uses kind) {a : σ} (ha : P a) {x : Step σ}
    (hx : x ∈ p.trace world a) : P x.before := by
  induction p generalizing a with
  | done y => simp [trace] at hx
  | call c next ih =>
    rcases List.mem_cons.1 hx with rfl | hx
    · exact ha
    · exact ih _ (hp.2 _) (hkept c a hp.1 ha) hx

theorem Uses.run_of_mem {p : Program α} (hp : p.Uses kind) {a : σ} {x : Step σ} (hx : x ∈ p.trace world a)
    (h : P x.after) : P (p.run world a).2 := by
  induction p generalizing a with
  | done y => simp [trace] at hx
  | call c next ih =>
    rcases List.mem_cons.1 hx with rfl | hx
    · exact (hp.2 _).run_preserves world hkept h
    · exact ih _ (hp.2 _) hx

omit hkept

theorem Uses.run_keeps {β : Type} {p : Program α} (hp : p.Uses kind) (f : σ → β)
    (hf : ∀ c a, kind c → f (world c a).2 = f a) (a : σ) : f (p.run world a).2 = f a :=
  hp.run_preserves world (P := fun b => f b = f a) (fun c b hc hb => (hf c b hc).trans hb) rfl

end Uses

theorem uses_publishAll {kind : Call → Prop} {l : List Event} (h : ∀ e ∈ l, kind (.publish e)) :
    (publishAll l).Uses kind := by
  induction l with
  | nil => exact .pure ()
  | cons e r ih =>
    obtain ⟨he, hr⟩ := List.forall_mem_cons.1 h
    exact .bind (.ask he) fun _ => ih hr

end Program

end RolloutControl
