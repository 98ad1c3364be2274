import RolloutControl.Document.Basic
import RolloutControl.Json.Parser
import RolloutControl.Decode.Tree
/-! What can go wrong, by cause, and the one place where a cause is put into words. -/

namespace RolloutControl

structure ApiFailure where
  status : String
  message : String
  reason : String
  code : Nat
deriving DecidableEq, Repr

namespace ApiFailure

def notFound (kind : String) (space : Option String) (name : String) : ApiFailure :=
  let what := match space with
    | some ns => kind ++ " " ++ ns ++ "/" ++ name
    | none => kind ++ " " ++ name
  ⟨"Failure", what ++ " not found", "NotFound", 404⟩

def conflict (message : String) : ApiFailure := ⟨"Failure", message, "Conflict", 409⟩

def isConflict (f : ApiFailure) : Bool := f.code == 409

def isNotFound (f : ApiFailure) : Bool := f.code == 404

def ofTree (t : Tree) : Decoding ApiFailure := do
  let es ← t.record "ErrorResponse" ["status", "message", "reason", "code"]
  let code ← Tree.withDefault es "code" none fun t => some <$> t.integer Tree.u16
  let message ← Tree.withDefault es "message" "" Tree.string
  let reason ← Tree.withDefault es "reason" "" Tree.string
  let status ← Tree.required es "status" Tree.string
  match code with
  | some n => pure ⟨status, message, reason, n.toNat⟩
  | none => throw (.missing "code")

end ApiFailure

inductive ObjectProblem
  | notAnObject (found : Json)
  | notStrings (path : Path)
  | badAddress (configMap member address : String)
  | noAddresses (configMap : String)
  | noDomain (configMap : String)
  | unlabelled (space pod label : String)
  | described (text : String)
deriving DecidableEq, Repr

def Path.text (p : Path) : String := String.intercalate "." p

namespace ObjectProblem

def message : ObjectProblem → String
  | .notAnObject found => "desired state must be an object, got " ++ found.compact
  | .notStrings path => Path.text path ++ " is not a string array"
  | .badAddress configMap member address =>
    "configmaps/" ++ configMap ++ ": member " ++ member ++ " has invalid address " ++
      Text.quoted address ++ ": invalid IP address syntax"
  | .noAddresses configMap => "configmaps/" ++ configMap ++ ": no etcd endpoint addresses found"
  | .noDomain configMap => "configmaps/" ++ configMap ++ ": ingress domain is empty"
  | .unlabelled space pod label =>
    "pod " ++ space ++ "/" ++ pod ++ " is missing the " ++ Text.quoted label ++ " label"
  | .described text => text

end ObjectProblem

inductive SettingsProblem
  | emptyField (field : String)
  | tooFewReplicas (replicas : Int)
  | unboundedBackoff
  | notGroupVersion (text : String)
  | overlap (first second : String) (firstPath secondPath : Path)
  | described (text : String)
deriving DecidableEq, Repr

namespace SettingsProblem

def message : SettingsProblem → String
  | .emptyField field => field ++ " must not be empty"
  | .tooFewReplicas n => "replicas must be positive, got " ++ Text.integer n
  | .unboundedBackoff => "backoff bounds must be positive"
  | .notGroupVersion text => Text.quoted text ++ " is not of the form <group>/<version>"
  | .overlap a b p q =>
    "observers " ++ a ++ " and " ++ b ++ " both write " ++ Path.text p ++ " / " ++ Path.text q
  | .described text => text

end SettingsProblem

inductive SecretProblem
  | missingKey (key : String)
  | undecodable
  | described (text : String)
deriving DecidableEq, Repr

namespace SecretProblem

def message : SecretProblem → String
  | .missingKey key => "missing key " ++ Text.quoted key
  | .undecodable => "<undecodable>"
  | .described text => text

end SecretProblem

inductive Error
  | api (failure : ApiFailure)
  | object (problem : ObjectProblem)
  | json (problem : DecodeError)
  | yaml
  | settings (problem : SettingsProblem)
  | secret (space name : String) (problem : SecretProblem)
  /-- Several failures of one cycle, in words. -/
  | several (messages : List String)
deriving DecidableEq, Repr

instance : Inhabited Error := ⟨.yaml⟩

def joinLines (messages : List String) : String := String.intercalate "\n" messages

namespace Error

def message : Error → String
  | .api f => "api error: " ++ f.message ++ ": " ++ f.reason
  | .object p => "invalid object: " ++ p.message
  | .json p => "error serializing or deserializing json: " ++ p.message
  | .yaml => "error serializing or deserializing yaml"
  | .settings p => "invalid operator configuration: " ++ p.message
  | .secret space name p =>
    "invalid encryption configuration in secret " ++ space ++ "/" ++ name ++ ": " ++ p.message
  | .several messages => joinLines messages

def isConflict : Error → Bool
  | .api f => f.isConflict
  | _ => false

def isNotFound : Error → Bool
  | .api f => f.isNotFound
  | _ => false

end Error

namespace Document

def ofJson (j : Json) : Except Error Document :=
  match ofJson? j with
  | some d => .ok d
  | none => .error (.object (.notAnObject j))

/-- The blanks that may stand where a document is missing. -/
def isBlankByte (b : UInt8) : Bool := [9, 10, 12, 13, 32].contains b

/-- The document that a text in bytes holds; a blank text holds the empty one. -/
def ofBytes (raw : List UInt8) : Except Error Document :=
  if raw.all isBlankByte then .ok ∅
  else
    match (String.fromUTF8? ⟨raw.toArray⟩).bind Json.parse? with
    | some j => ofJson j
    | none => .error (.json .malformed)

def strings? (d : Document) (p : Path) : Except Error (Option (List String)) :=
  match d.get? p with
  | none => .ok none
  | some (.arr items) =>
    match items.mapM Json.str? with
    | some l => .ok (some l)
    | none => .error (.object (.notStrings p))
  | some _ => .error (.object (.notStrings p))

end Document

end RolloutControl
