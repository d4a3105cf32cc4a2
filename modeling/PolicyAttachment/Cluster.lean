import PolicyAttachment.Json.Printer
import PolicyAttachment.Lease
import PolicyAttachment.Request

/-!
# The cluster

The API server as an instance sees it when it starts: the deployment it belongs to, the lease, the
kinds that are served and the objects there are. Only the lease is ever changed, by patches that
name the version they are for.
-/

namespace PolicyAttachment
set_option autoImplicit false

/-- What the API server holds. -/
structure Cluster where
  deployment : Json
  lease : Option Json
  /-- The text with which every patch of the lease is answered, if it is not to be carried out. -/
  leaseReply : Option String
  /-- The kinds that are served, by group version. -/
  resources : List (String × List String)
  objects : List Json

namespace Cluster

/-- The kinds that are served, one list per group version. -/
def resources? (j : Json) : Option (List (String × List String)) := do
  (← j.members?).mapM fun (version, kinds) => do
    some (version, ← Json.list? Json.string? kinds)

/-- Reads a cluster, any part of which may be missing: then there is none of it. -/
def ofJson? (j : Json) : Option Cluster := do
  let members ← j.members?
  let deployment ← members.optional "deployment" some
  let lease ← members.optional "lease" some
  let leaseReply ← members.optional "leaseResponse" some
  let resources ← members.optional "resources" resources?
  let objects ← members.optional "objects" Json.items?
  some
    { deployment := deployment.getD (.obj [])
      lease
      leaseReply := leaseReply.map Json.bareText
      resources := resources.getD []
      objects := objects.getD [] }

/-- The text member `name` of an object's metadata. -/
def metadataText? (name : String) (object : Json) : Option String :=
  ((object.member? "metadata").bind (Json.member? name)).bind Json.string?

/-- Where the deployment called `name` in the namespace `ns` is found. -/
def deploymentPath (ns name : String) : String :=
  "/apis/apps/v1/namespaces/" ++ ns ++ "/deployments/" ++ name

/-- The deployment that an address leads to. -/
def deployment? (c : Cluster) (uri : String) : Option Json := do
  let ns ← metadataText? "namespace" c.deployment
  let name ← metadataText? "name" c.deployment
  if Uri.path uri = deploymentPath ns name then some c.deployment else none

/-- The version of a stored lease. -/
def versionOf (lease : Json) : String := (metadataText? "resourceVersion" lease).getD "0"

/-- The version after `version`. -/
def nextVersion (version : String) : String := toString ((version.toNat?).getD 0 + 1)

/-- The object in the member `name`, which is new if there is none. -/
def part (name : String) (object : Json) : Json :=
  match object.member? name with
  | none | some .null => .obj []
  | some j => j

def setVersion (version : String) (lease : Json) : Json :=
  lease.setMember "metadata"
    ((part "metadata" lease).setMember "resourceVersion" (.str version))

/-- Sets the members of a lease's terms that `body` gives. -/
def setTerms (body lease : Json) : Json :=
  match (body.member? "spec").bind Json.members? with
  | some members =>
    lease.setMember "spec"
      (members.foldl (fun t (name, value) => t.setMember name value) (part "spec" lease))
  | none => lease

/-- The lease that a patch creates. -/
def newLease (body : Json) : Json :=
  .obj [("metadata", part "metadata" body), ("spec", .obj [])]

/-- The lease after a patch; nothing if the patch is for another version. -/
def patchedLease? (c : Cluster) (body : Json) : Option Json :=
  match c.lease with
  | some lease =>
    if metadataText? "resourceVersion" body = some (versionOf lease) then
      some (setVersion (nextVersion (versionOf lease)) (setTerms body lease))
    else none
  | none => some (setVersion (nextVersion "0") (setTerms body (newLease body)))

/-- Whether objects of a kind are served. -/
def serves (c : Cluster) (kind : WatchedKind) : Bool :=
  match c.resources.lookup kind.apiVersion with
  | some kinds => kinds.contains kind.name
  | none => false

/-- The objects of a kind, if all of them read and can be told by namespace and name. -/
def list? (c : Cluster) (kind : WatchedKind) : Option (List WatchedObject) := do
  let documents := c.objects.filter fun o =>
    (o.member? "kind").bind Json.string? = some kind.name
  let objects ← documents.mapM (WatchedObject.ofJson? kind)
  guard (objects.all fun o => o.metadata.ns.isSome && o.metadata.name.isSome)
  some objects

end Cluster
end PolicyAttachment
