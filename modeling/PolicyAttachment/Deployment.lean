import PolicyAttachment.Shape.Deployment
import PolicyAttachment.Watched

/-!
# Deployments

The deployment that an instance belongs to. It owns the lease, so that the lease goes with it.
-/

namespace PolicyAttachment
set_option autoImplicit false

/-- A deployment, as far as it can own other objects. -/
structure Deployment where
  name : Option String
  uid : Option String
deriving DecidableEq, Repr

namespace Deployment

def apiVersion : String := "apps/v1"

def kind : String := "Deployment"

def ofJson? (j : Json) : Option Deployment := do
  let members ← j.members?
  WatchedObject.fixedText? members "apiVersion" apiVersion
  WatchedObject.fixedText? members "kind" kind
  let metadata ← members.last "metadata" Metadata.ofJson?
  let _ ← members.last "spec" Shape.deploymentSpec.check
  let _ ← members.last "status" Shape.deploymentStatus.check
  some { name := metadata.bind Metadata.name, uid := metadata.bind Metadata.uid }

/-- How an object refers to the deployment as its owner, if the deployment can be told. -/
def ownerReference? (d : Deployment) : Option Json := do
  let name ← d.name
  let uid ← d.uid
  some (.obj [("apiVersion", .str apiVersion), ("controller", .bool true), ("kind", .str kind),
    ("name", .str name), ("uid", .str uid)])

end Deployment
end PolicyAttachment
