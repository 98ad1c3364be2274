import RolloutControl.Cluster.Object
import RolloutControl.Error
import RolloutControl.Decode.Yaml
/-! The encryption configuration of an API server, as secrets hold it: which resources are encrypted,
by which providers, under which keys. -/

namespace RolloutControl

structure EncryptionKey where
  name : String
  secret : String
deriving DecidableEq, Repr

/-- A way to encrypt. At most one of these is meant to be present. -/
structure EncryptionProvider where
  aescbc : Option (List EncryptionKey) := none
  aesgcm : Option (List EncryptionKey) := none
  secretbox : Option (List EncryptionKey) := none
  /-- Plain text. -/
  identity : Bool := false
deriving DecidableEq, Repr

structure EncryptionRule where
  resources : List String
  /-- The first one writes, and all of them read. -/
  providers : List EncryptionProvider := []
deriving DecidableEq, Repr

structure EncryptionConfig where
  kind : String := ""
  apiVersion : String := ""
  rules : List EncryptionRule := []
deriving DecidableEq, Repr

namespace EncryptionKey

def ofTree (t : Tree) : Decoding EncryptionKey := do
  let es ← t.record "Key" ["name", "secret"]
  pure {
    name := ← Tree.required es "name" Tree.string
    secret := ← Tree.required es "secret" Tree.string }

def toJson (k : EncryptionKey) : Json := Json.object [("name", .str k.name), ("secret", .str k.secret)]

end EncryptionKey

namespace EncryptionProvider

def keysOfTree (t : Tree) : Decoding (List EncryptionKey) := do
  let es ← t.record "KeysConfiguration" ["keys"]
  Tree.required es "keys" (Tree.list EncryptionKey.ofTree)

def ofTree (t : Tree) : Decoding EncryptionProvider := do
  let es ← t.record "ProviderConfiguration" ["aescbc", "aesgcm", "secretbox", "identity"]
  let keys (field : String) := Tree.withDefault es field none (Tree.optional keysOfTree)
  pure {
    aescbc := ← keys "aescbc"
    aesgcm := ← keys "aesgcm"
    secretbox := ← keys "secretbox"
    identity := (← Tree.withDefault es "identity" none
      (Tree.optional fun t => t.record "IdentityConfiguration" [])).isSome }

def toJson (p : EncryptionProvider) : Json :=
  let keys (l : List EncryptionKey) : Json :=
    Json.object [("keys", .arr (l.map EncryptionKey.toJson))]
  Json.object (Json.present
    [("aescbc", p.aescbc.map keys), ("aesgcm", p.aesgcm.map keys), ("secretbox", p.secretbox.map keys),
     ("identity", if p.identity then some (.obj []) else none)])

end EncryptionProvider

namespace EncryptionRule

def ofTree (t : Tree) : Decoding EncryptionRule := do
  let es ← t.record "ResourceConfiguration" ["resources", "providers"]
  pure {
    resources := ← Tree.required es "resources" (Tree.list Tree.string)
    providers := ← Tree.withDefault es "providers" [] (Tree.list EncryptionProvider.ofTree) }

def toJson (r : EncryptionRule) : Json :=
  Json.object
    [("resources", Json.strings r.resources),
     ("providers", .arr (r.providers.map EncryptionProvider.toJson))]

end EncryptionRule

namespace EncryptionConfig

def key : String := "encryption-config"

def ofTree (t : Tree) : Decoding EncryptionConfig := do
  let es ← t.record "EncryptionConfiguration" ["kind", "apiVersion", "resources"]
  pure {
    kind := ← Tree.withDefault es "kind" "" Tree.string
    apiVersion := ← Tree.withDefault es "apiVersion" "" Tree.string
    rules := ← Tree.withDefault es "resources" [] (Tree.list EncryptionRule.ofTree) }

def toJson (c : EncryptionConfig) : Json :=
  Json.object
    [("kind", .str c.kind), ("apiVersion", .str c.apiVersion),
     ("resources", .arr (c.rules.map EncryptionRule.toJson))]

/-- The configuration that some bytes hold, in YAML or JSON. -/
def ofBytes? (bytes : Bytes) : Option EncryptionConfig := do
  Yaml.decode? ofTree (← String.fromUTF8? ⟨bytes.toArray⟩)

end EncryptionConfig

namespace Secret

/-- The configuration in a secret, as far as `read` makes one out of bytes. -/
def configBy (read : Bytes → Option EncryptionConfig) (s : Secret) : Except Error EncryptionConfig :=
  let fail (problem : SecretProblem) : Except Error EncryptionConfig :=
    .error (.secret (s.metadata.space.getD "") s.metadata.anyName problem)
  match (s.data.getD ∅).get? EncryptionConfig.key with
  | none => fail (.missingKey EncryptionConfig.key)
  | some bytes =>
    match read bytes with
    | some c => .ok c
    | none => fail .undecodable

def encryptionConfig (s : Secret) : Except Error EncryptionConfig :=
  s.configBy EncryptionConfig.ofBytes?

end Secret

end RolloutControl
