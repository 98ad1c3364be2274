import RolloutControl.Cache.View
import RolloutControl.Cluster.Manifest
import RolloutControl.Event
import RolloutControl.Status.Operator
/-! What the operator asks of the world around it, and programs that ask. A program is a tree: every
call has one branch for each answer, so whatever the world does, the program says what follows. -/

namespace RolloutControl

inductive Call
  /-- What the caches hold. -/
  | view
  | clock
  | getOperator
  /-- Replaces the spec, unless the resource has another version than this by now. -/
  | writeSpec (version : String) (spec : OperatorSpec)
  | writeStatus (version : String) (status : OperatorStatus)
  | applyManifest (m : Manifest)
  | applyConfigMap (cm : ConfigMap)
  | applySecret (s : Secret)
  /-- Brings a deployment about. The generation is the one of the last time that this was done, and
  with `force` the pods are replaced even if nothing else is to be changed. -/
  | applyDeployment (d : Deployment) (expected : Option Int) (force : Bool)
  /-- Asks discovery for a group version. -/
  | probe (groupVersion : String)
  | publish (e : Event)
  | sleep (millis : Nat)

/-- What a call is answered with. Objects that are applied are answered with whether that changed
anything. -/
abbrev Call.Answer : Call → Type
  | .view => ClusterView
  | .clock => Instant
  | .getOperator | .writeSpec _ _ | .writeStatus _ _ => Except Error OperatorResource
  | .applyManifest _ | .applyConfigMap _ | .applySecret _ => Except Error Bool
  | .applyDeployment _ _ _ => Except Error (Deployment × Bool)
  | .probe _ => Except Error Unit
  | .publish _ | .sleep _ => Unit

inductive Program (α : Type) : Type
  | done (a : α)
  | call (c : Call) (next : c.Answer → Program α)

namespace Program

variable {α β σ : Type}

def bind : Program α → (α → Program β) → Program β
  | .done a, f => f a
  | .call c next, f => .call c fun a => (next a).bind f

instance : Monad Program where
  pure := .done
  bind := bind

def ask (c : Call) : Program c.Answer := .call c .done

/-- A world: how it answers a call, and how it is afterwards. -/
abbrev World (σ : Type) := (c : Call) → σ → c.Answer × σ

def run (world : World σ) : Program α → σ → α × σ
  | .done a, s => (a, s)
  | .call c next, s => (next (world c s).1).run world (world c s).2

/-- Runs a program to its end or to its next sleep, and says how long that is and what comes after. -/
def runToSleep (world : World σ) : Program α → σ → (α ⊕ (Nat × Program α)) × σ
  | .done a, s => (.inl a, s)
  | .call (.sleep millis) next, s => (.inr (millis, next ()), s)
  | .call c next, s => (next (world c s).1).runToSleep world (world c s).2

end Program

def view : Program ClusterView := .ask .view

def publish (e : Event) : Program Unit := .ask (.publish e)

def publishAll : List Event → Program Unit
  | [] => pure ()
  | e :: r => do
    publish e
    publishAll r

def probeAll : List String → Program (List (String × Except Error Unit))
  | [] => pure []
  | gv :: r => do
    let answer ← Program.ask (.probe gv)
    let rest ← probeAll r
    pure ((gv, answer) :: rest)

end RolloutControl
