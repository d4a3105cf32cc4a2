import PolicyAttachment.Instant.Json
import PolicyAttachment.Table

/-!
# Object metadata

What every object carries: its name and namespace, its identity, the version it was read at, the
generation of its spec, when it was created, and what others noted down on it. All of it may be
absent, and what is given is written back as it was read.
-/

namespace PolicyAttachment
set_option autoImplicit false

/-- Texts by name. -/
abbrev Labels := Table String String

namespace Labels

def toJson (l : Labels) : Json := .obj (l.entries.map fun (name, value) => (name, .str value))

/-- Of a name that is given several times the last text counts. -/
def ofJson? (j : Json) : Option Labels := do
  let entries ← (← j.members?).mapM fun (name, value) => do some (name, ← value.string?)
  some (entries.foldl (fun l (name, value) => l.insert name value) .empty)

end Labels

/-- An object that another one belongs to. -/
structure OwnerReference where
  apiVersion : String
  kind : String
  name : String
  uid : String
  controls : Option Bool
  blocksDeletion : Option Bool
deriving DecidableEq, Repr

namespace OwnerReference

def toJson (o : OwnerReference) : Json :=
  .obj ([("apiVersion", .str o.apiVersion), ("kind", .str o.kind), ("name", .str o.name),
      ("uid", .str o.uid)]
    ++ Json.given "controller" .bool o.controls
    ++ Json.given "blockOwnerDeletion" .bool o.blocksDeletion)

/-- A part that is missing is empty. -/
def ofJson? (j : Json) : Option OwnerReference := do
  let members ← j.members?
  let apiVersion ← members.last "apiVersion" Json.string?
  let kind ← members.last "kind" Json.string?
  let name ← members.last "name" Json.string?
  let uid ← members.last "uid" Json.string?
  let controls ← members.last "controller" Json.bool?
  let blocksDeletion ← members.last "blockOwnerDeletion" Json.bool?
  some
    { apiVersion := apiVersion.getD "", kind := kind.getD "", name := name.getD ""
      uid := uid.getD "", controls, blocksDeletion }

end OwnerReference

/-- Which fields of an object one manager set, in what version of the API and when. -/
structure ManagedFields where
  manager : Option String
  operation : Option String
  subresource : Option String
  apiVersion : Option String
  format : Option String
  fields : Option Json
  time : Option Instant
deriving Repr

namespace ManagedFields

def toJson (m : ManagedFields) : Json :=
  .obj (Json.given "manager" .str m.manager ++ Json.given "operation" .str m.operation
    ++ Json.given "subresource" .str m.subresource ++ Json.given "apiVersion" .str m.apiVersion
    ++ Json.given "fieldsType" .str m.format ++ Json.given "fieldsV1" id m.fields
    ++ Json.given "time" Instant.toJson m.time)

def ofJson? (j : Json) : Option ManagedFields := do
  let members ← j.members?
  let manager ← members.last "manager" Json.string?
  let operation ← members.last "operation" Json.string?
  let subresource ← members.last "subresource" Json.string?
  let apiVersion ← members.last "apiVersion" Json.string?
  let format ← members.last "fieldsType" Json.string?
  let fields ← members.last "fieldsV1" Json.legible?
  let time ← members.last "time" Instant.ofJson?
  some { manager, operation, subresource, apiVersion, format, fields, time }

end ManagedFields

/-- The metadata of an object. -/
structure Metadata where
  name : Option String
  ns : Option String
  uid : Option String
  resourceVersion : Option String
  generation : Option Int
  created : Option Instant
  generateName : Option String
  clusterName : Option String
  selfLink : Option String
  deleted : Option Instant
  deletionGraceSeconds : Option Int
  labels : Option Labels
  annotations : Option Labels
  finalizers : Option (List String)
  owners : Option (List OwnerReference)
  managedFields : Option (List ManagedFields)
deriving Repr, Inhabited

namespace Metadata

def toJson (m : Metadata) : Json :=
  .obj (Json.given "name" .str m.name ++ Json.given "namespace" .str m.ns
    ++ Json.given "uid" .str m.uid ++ Json.given "resourceVersion" .str m.resourceVersion
    ++ Json.given "generation" .int m.generation
    ++ Json.given "creationTimestamp" Instant.toJson m.created
    ++ Json.given "generateName" .str m.generateName
    ++ Json.given "clusterName" .str m.clusterName ++ Json.given "selfLink" .str m.selfLink
    ++ Json.given "deletionTimestamp" Instant.toJson m.deleted
    ++ Json.given "deletionGracePeriodSeconds" .int m.deletionGraceSeconds
    ++ Json.given "labels" Labels.toJson m.labels
    ++ Json.given "annotations" Labels.toJson m.annotations
    ++ Json.given "finalizers" (Json.ofList .str) m.finalizers
    ++ Json.given "ownerReferences" (Json.ofList OwnerReference.toJson) m.owners
    ++ Json.given "managedFields" (Json.ofList ManagedFields.toJson) m.managedFields)

def ofJson? (j : Json) : Option Metadata := do
  let members ← j.members?
  let name ← members.last "name" Json.string?
  let ns ← members.last "namespace" Json.string?
  let uid ← members.last "uid" Json.string?
  let resourceVersion ← members.last "resourceVersion" Json.string?
  let generation ← members.last "generation" Json.int64?
  let created ← members.last "creationTimestamp" Instant.ofJson?
  let generateName ← members.last "generateName" Json.string?
  let clusterName ← members.last "clusterName" Json.string?
  let selfLink ← members.last "selfLink" Json.string?
  let deleted ← members.last "deletionTimestamp" Instant.ofJson?
  let deletionGraceSeconds ← members.last "deletionGracePeriodSeconds" Json.int64?
  let labels ← members.last "labels" Labels.ofJson?
  let annotations ← members.last "annotations" Labels.ofJson?
  let finalizers ← members.last "finalizers" (Json.list? Json.string?)
  let owners ← members.last "ownerReferences" (Json.list? OwnerReference.ofJson?)
  let managedFields ← members.last "managedFields" (Json.list? ManagedFields.ofJson?)
  some
    { name, ns, uid, resourceVersion, generation, created, generateName, clusterName, selfLink
      deleted, deletionGraceSeconds, labels, annotations, finalizers, owners, managedFields }

end Metadata
end PolicyAttachment
