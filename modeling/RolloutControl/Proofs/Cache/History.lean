import RolloutControl.Cache.View
/-! What a cache holds after a history of watch events. Under every reference it holds what the last word on it was,
and histories with the same last words end in the same cache. -/

namespace RolloutControl.Cache

variable {α : Type} [ClusterObject α]

def ofEvents (events : List (WatchEvent α)) : Cache α := events.foldl apply ∅

/-- Of several objects with one reference the last one counts. -/
def lastOf (r : ObjectRef) (all : List α) : Option α := all.reverse.find? fun a => objectRef a = r

/-- The last word on a reference, going back from the latest event. A relist has a word on every reference. -/
def lastWord (r : ObjectRef) : List (WatchEvent α) → Option α
  | [] => none
  | .applied a :: earlier => if r = objectRef a then some a else lastWord r earlier
  | .deleted a :: earlier => if r = objectRef a then none else lastWord r earlier
  | .restarted all :: _ => lastOf r all

theorem ofObjects_append (l : List α) (a : α) : ofObjects (l ++ [a]) = (ofObjects l).put a := by
  refine Dict.ext fun r => ?_
  simp [ofObjects, put, Dict.get?, Dict.ofList, Dict.insert, Assoc.ofList]

theorem get?_ofObjects (l : List α) (r : ObjectRef) : Dict.get? (ofObjects l) r = lastOf r l := by
  rw [← l.reverse_reverse]
  induction l.reverse with
  | nil => rfl
  | cons a earlier ih =>
    rw [List.reverse_cons, ofObjects_append, put, Dict.get?_insert, ih]
    by_cases h : r = objectRef a
    · simp [lastOf, h]
    · simp [lastOf, h, Ne.symm h]

theorem get?_ofEvents (events : List (WatchEvent α)) (r : ObjectRef) :
    Dict.get? (ofEvents events) r = lastWord r events.reverse := by
  obtain ⟨latest, rfl⟩ : ∃ latest, events = latest.reverse := ⟨events.reverse, events.reverse_reverse.symm⟩
  rw [List.reverse_reverse]
  induction latest with
  | nil => rfl
  | cons e earlier ih =>
    rw [List.reverse_cons, ofEvents, List.foldl_append]
    change Dict.get? ((ofEvents earlier.reverse).apply e) r = _
    cases e with
    | applied a => rw [apply, put, Dict.get?_insert, ih, lastWord]
    | deleted a => rw [apply, Dict.get?_erase, ih, lastWord]
    | restarted all => rw [apply, get?_ofObjects, lastWord]

/-- The order of the events only matters as far as it decides on the last words. -/
theorem ofEvents_congr {events events' : List (WatchEvent α)}
    (h : ∀ r, lastWord r events.reverse = lastWord r events'.reverse) : ofEvents events = ofEvents events' :=
  Dict.ext fun r => by rw [get?_ofEvents, get?_ofEvents, h]

end RolloutControl.Cache
