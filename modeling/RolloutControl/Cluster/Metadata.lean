import RolloutControl.Decode.Tree
import RolloutControl.Time.Stamp
/-! The metadata that every object carries, and its JSON form. -/

namespace RolloutControl

abbrev Labels := Dict String String

namespace Json

def ofLabels (l : Labels) : Json := .obj (l.entries.map fun e => (e.1, .str e.2))

def present (fields : List (String × Option Json)) : Fields :=
  fields.filterMap fun e => e.2.map (e.1, ·)

end Json

namespace Tree

def stamp (t : Tree) : Decoding Stamp := do
  match Stamp.parse? (← t.string) with
  | some i => pure i
  | none => throw .malformed

variable {α : Type}

/-- The fields of an object of the cluster, which may be given several times. -/
def objectFields (name : String) (t : Tree) : Decoding (List (String × Tree)) := do
  match ← t.itself with
  | .map es => entries es
  | t => if t.isVoid then pure [] else t.wrongType ("struct " ++ name)

/-- A field that may be missing and may be null. Of several fields with one name all are read, and the
last one counts. -/
def objectField (es : List (String × Tree)) (name : String) (f : Tree → Decoding α) :
    Decoding (Option α) :=
  (es.filter fun e => e.1 = name).foldlM (fun _ e => optional f e.2) none

end Tree

/-- An object on which another one depends for its existence. -/
structure Owner where
  apiVersion : String
  kind : String
  name : String
  uid : String
  controller : Option Bool
  blocksDeletion : Option Bool
deriving DecidableEq, Inhabited

namespace Owner

def toJson (o : Owner) : Json :=
  Json.object (Json.present
    [("apiVersion", some (.str o.apiVersion)), ("blockOwnerDeletion", o.blocksDeletion.map .bool),
     ("controller", o.controller.map .bool), ("kind", some (.str o.kind)),
     ("name", some (.str o.name)), ("uid", some (.str o.uid))])

def ofTree (t : Tree) : Decoding Owner := do
  let es ← t.objectFields "OwnerReference"
  let text (name : String) := (·.getD "") <$> Tree.objectField es name Tree.string
  pure {
    apiVersion := ← text "apiVersion"
    kind := ← text "kind"
    name := ← text "name"
    uid := ← text "uid"
    controller := ← Tree.objectField es "controller" Tree.boolean
    blocksDeletion := ← Tree.objectField es "blockOwnerDeletion" Tree.boolean }

end Owner

/-- Which fields of an object a manager has set, and when. -/
structure ManagedFields where
  apiVersion : Option String
  fieldsType : Option String
  fields : Option Json
  manager : Option String
  operation : Option String
  subresource : Option String
  time : Option Stamp
deriving DecidableEq, Inhabited

namespace ManagedFields

def toJson (m : ManagedFields) : Json :=
  let text (name : String) (value : Option String) := (name, value.map Json.str)
  Json.object (Json.present
    [text "apiVersion" m.apiVersion, text "fieldsType" m.fieldsType, ("fieldsV1", m.fields),
     text "manager" m.manager, text "operation" m.operation, text "subresource" m.subresource,
     ("time", m.time.map fun t => .str t.text)])

def ofTree (t : Tree) : Decoding ManagedFields := do
  let es ← t.objectFields "ManagedFieldsEntry"
  let text (name : String) := Tree.objectField es name Tree.string
  pure {
    apiVersion := ← text "apiVersion"
    fieldsType := ← text "fieldsType"
    fields := ← Tree.objectField es "fieldsV1" Tree.json
    manager := ← text "manager"
    operation := ← text "operation"
    subresource := ← text "subresource"
    time := ← Tree.objectField es "time" Tree.stamp }

end ManagedFields

structure Metadata where
  name : Option String := none
  generateName : Option String := none
  space : Option String := none
  labels : Option Labels := none
  annotations : Option Labels := none
  generation : Option Int := none
  resourceVersion : Option String := none
  uid : Option String := none
  selfLink : Option String := none
  created : Option Stamp := none
  deleted : Option Stamp := none
  /-- The time that a deletion gives the object to end, in seconds. -/
  gracePeriod : Option Int := none
  finalizers : Option (List String) := none
  owners : Option (List Owner) := none
  managers : Option (List ManagedFields) := none
deriving DecidableEq, Inhabited

namespace Metadata

def anyName (m : Metadata) : String := (m.name <|> m.generateName).getD ""

def toJson (m : Metadata) : Json :=
  let text (name : String) (value : Option String) := (name, value.map Json.str)
  let time (name : String) (value : Option Stamp) := (name, value.map fun i => Json.str i.text)
  Json.object (Json.present
    [("annotations", m.annotations.map Json.ofLabels),
     time "creationTimestamp" m.created,
     ("deletionGracePeriodSeconds", m.gracePeriod.map .int),
     time "deletionTimestamp" m.deleted,
     ("finalizers", m.finalizers.map Json.strings),
     text "generateName" m.generateName,
     ("generation", m.generation.map .int),
     ("labels", m.labels.map Json.ofLabels),
     ("managedFields", m.managers.map fun l => .arr (l.map ManagedFields.toJson)),
     text "name" m.name,
     text "namespace" m.space,
     ("ownerReferences", m.owners.map fun l => .arr (l.map Owner.toJson)),
     text "resourceVersion" m.resourceVersion,
     text "selfLink" m.selfLink,
     text "uid" m.uid])

def ofTree (t : Tree) : Decoding Metadata := do
  let es ← t.objectFields "ObjectMeta"
  let text (name : String) := Tree.objectField es name Tree.string
  let labels (name : String) := Tree.objectField es name (Tree.dict Tree.string)
  pure {
    name := ← text "name"
    generateName := ← text "generateName"
    space := ← text "namespace"
    labels := ← labels "labels"
    annotations := ← labels "annotations"
    generation := ← Tree.objectField es "generation" (Tree.integer Tree.i64)
    resourceVersion := ← text "resourceVersion"
    uid := ← text "uid"
    selfLink := ← text "selfLink"
    created := ← Tree.objectField es "creationTimestamp" Tree.stamp
    deleted := ← Tree.objectField es "deletionTimestamp" Tree.stamp
    gracePeriod := ← Tree.objectField es "deletionGracePeriodSeconds" (Tree.integer Tree.i64)
    finalizers := ← Tree.objectField es "finalizers" (Tree.list Tree.string)
    owners := ← Tree.objectField es "ownerReferences" (Tree.list Owner.ofTree)
    managers := ← Tree.objectField es "managedFields" (Tree.list ManagedFields.ofTree) }

end Metadata

end RolloutControl
