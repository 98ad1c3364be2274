import RolloutControl.Time.Instant
/-! Conditions: named verdicts with a reason, a message and the time of the last change of verdict.
A list of conditions is read as a map from their types. -/

namespace RolloutControl

inductive Verdict
  | holds | fails | unknown
deriving DecidableEq, Repr, Inhabited

namespace Verdict

def text : Verdict → String
  | .holds => "True"
  | .fails => "False"
  | .unknown => "Unknown"

def ofBool (b : Bool) : Verdict := if b then .holds else .fails

end Verdict

structure Condition where
  type : String
  verdict : Verdict
  reason : String := ""
  message : String := ""
  since : Option Instant := none
deriving DecidableEq, Repr, Inhabited

namespace Condition

def find? (type : String) (l : List Condition) : Option Condition := l.find? fun c => c.type = type

def isTrue (type : String) (l : List Condition) : Bool :=
  (find? type l).any fun c => c.verdict = .holds

def isFalse (type : String) (l : List Condition) : Bool :=
  (find? type l).any fun c => c.verdict = .fails

def remove (type : String) (l : List Condition) : List Condition := l.filter fun c => c.type ≠ type

/-- Puts a condition in the place of the one of its type, or else at the end. The time of the last
change is kept as long as the verdict is the same. -/
def set (now : Instant) (new : Condition) : List Condition → List Condition
  | [] => [{ new with since := some now }]
  | c :: r =>
    if c.type = new.type then
      { new with since := if c.verdict = new.verdict then c.since else some now } :: r
    else c :: set now new r

theorem find?_set_self (now : Instant) (new : Condition) (l : List Condition) :
    find? new.type (set now new l) = some { new with
      since := match find? new.type l with
        | some c => if c.verdict = new.verdict then c.since else some now
        | none => some now } := by
  induction l with
  | nil => simp [set, find?]
  | cons c r ih =>
    by_cases h : c.type = new.type
    · simp [set, find?, h]
    · simpa [set, find?, h] using ih

theorem find?_set_ne (now : Instant) (new : Condition) (l : List Condition) {type : String}
    (h : type ≠ new.type) : find? type (set now new l) = find? type l := by
  induction l with
  | nil => simp [set, find?, Ne.symm h]
  | cons c r ih =>
    by_cases hc : c.type = new.type
    · simp [set, find?, hc, Ne.symm h]
    · by_cases ht : c.type = type <;> simp_all [set, find?]

theorem set_eq_self_iff (now : Instant) (new : Condition) (l : List Condition) :
    set now new l = l ↔ ∃ c, find? new.type l = some c ∧ c.verdict = new.verdict ∧
      c.reason = new.reason ∧ c.message = new.message := by
  induction l with
  | nil => simp [set, find?]
  | cons c r ih =>
    by_cases h : c.type = new.type
    · obtain ⟨type, verdict, reason, message, since⟩ := c
      obtain rfl : type = new.type := h
      simp only [set, find?, List.find?_cons_of_pos, if_true, decide_true, List.cons.injEq,
        and_true, Condition.mk.injEq, true_and, Option.some.injEq, exists_eq_left']
      constructor
      · rintro ⟨hverdict, hreason, hmessage, -⟩
        exact ⟨hverdict.symm, hreason.symm, hmessage.symm⟩
      · rintro ⟨rfl, rfl, rfl⟩
        simp
    · simpa [set, find?, h] using ih

end Condition

end RolloutControl
