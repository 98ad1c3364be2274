/-! Events: what the operator tells people about its work. An event is never read back by the program. -/

namespace RolloutControl

inductive EventKind
  | normal | warning
deriving DecidableEq, Repr

namespace EventKind

def text : EventKind → String
  | .normal => "Normal"
  | .warning => "Warning"

end EventKind

structure Event where
  kind : EventKind
  reason : String
  note : String
deriving DecidableEq, Repr

namespace Event

def normal (reason note : String) : Event := ⟨.normal, reason, note⟩

def warning (reason note : String) : Event := ⟨.warning, reason, note⟩

end Event

end RolloutControl
