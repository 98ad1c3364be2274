import RolloutControl.Cache.Basic
/-! Labels that other labels ask for. -/

namespace RolloutControl

namespace Dict

variable {κ ν : Type} [LT κ] [DecidableEq κ]

def Within (l m : Dict κ ν) : Prop := ∀ k v, l.get? k = some v → m.get? k = some v

theorem Within.refl (l : Dict κ ν) : l.Within l := fun _ _ hk => hk

theorem Within.trans {l m n : Dict κ ν} (h : l.Within m) (h' : m.Within n) : l.Within n :=
  fun k v hk => h' k v (h k v hk)

theorem Within.insert [DecidableLT κ] [KeyOrder κ] {l m : Dict κ ν} (h : l.Within m) {k : κ} {v : ν}
    (hk : ∀ w, l.get? k = some w → w = v) : l.Within (m.insert k v) := by
  intro j w hw
  rw [get?_insert]
  split
  · next hj => rw [hk w (hj ▸ hw)]
  · exact h j w hw

theorem within_insert_iff [DecidableLT κ] [KeyOrder κ] {l : Dict κ ν} {k : κ} {v : ν} :
    l.Within (l.insert k v) ↔ ∀ w, l.get? k = some w → w = v := by
  refine ⟨fun h w hw => ?_, (Within.refl l).insert⟩
  simpa [eq_comm] using h k w hw

end Dict

theorem Cache.selects_iff_within {selector : Labels} {labels : Option Labels} :
    Cache.selects selector labels ↔ selector.Within (labels.getD ∅) := by
  rw [Cache.selects, List.all_eq_true]
  constructor
  · exact fun h k v hk => of_decide_eq_true (h (k, v) (Dict.mem_entries_iff.2 hk))
  · exact fun h e he => decide_eq_true (h e.1 e.2 (Dict.mem_entries_iff.1 he))

end RolloutControl
