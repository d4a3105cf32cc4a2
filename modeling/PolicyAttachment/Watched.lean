import PolicyAttachment.Policy.Object
import PolicyAttachment.Route
import PolicyAttachment.Shape.Gateway

/-!
# Watched objects

The objects whose appearance and disappearance decide about status: Services, Gateways and HTTP
routes as targets and ancestors, and the policies themselves. Only what that takes is kept of each,
but all of it has to read.
-/

namespace PolicyAttachment
set_option autoImplicit false

/-- The kinds of objects that are watched. -/
inductive WatchedKind where
  | service
  | gateway
  | httpRoute
  | policy (kind : PolicyKind)
deriving DecidableEq, Repr

namespace WatchedKind

/-- All kinds, in the order in which they are first listed. -/
def all : List WatchedKind := [service, gateway, httpRoute] ++ PolicyKind.all.map policy

def name : WatchedKind → String
  | service => "Service"
  | gateway => "Gateway"
  | httpRoute => "HTTPRoute"
  | policy kind => kind.name

def ofName? (s : String) : Option WatchedKind := all.find? (·.name == s)

/-- The API version of Gateways and routes. -/
def gatewayApiVersion : String := "gateway.networking.k8s.io/v1beta1"

def apiVersion : WatchedKind → String
  | service => "v1"
  | gateway | httpRoute => gatewayApiVersion
  | policy _ => policyApiVersion

end WatchedKind

/-- A watched object. -/
inductive WatchedObject where
  | service (metadata : Metadata)
  | gateway (metadata : Metadata)
  | httpRoute (metadata : Metadata) (spec : RouteSpec)
  | policy (policy : Policy)
deriving Repr

namespace WatchedObject

def metadata : WatchedObject → Metadata
  | service m => m
  | gateway m => m
  | httpRoute m _ => m
  | policy p => p.metadata

/-- A member that must be the text `expected` wherever it is given. -/
def fixedText? (members : Json.Members) (name expected : String) : Option Unit :=
  if (members.valuesOf name).all fun j => j.string? = some expected then some () else none

/-- A Service, all of whose parts may be missing. -/
def service? (j : Json) : Option WatchedObject := do
  let members ← j.members?
  fixedText? members "apiVersion" "v1"
  fixedText? members "kind" "Service"
  let metadata ← members.last "metadata" Metadata.ofJson?
  let _ ← members.last "spec" Shape.serviceSpec.check
  let _ ← members.last "status" Shape.serviceStatus.check
  some (.service (metadata.getD default))

def gateway? (j : Json) : Option WatchedObject := do
  let members ← j.members?
  let metadata ← members.required "metadata" Metadata.ofJson?
  members.required "spec" Shape.gatewaySpec.check
  let _ ← members.optional "status" Shape.gatewayStatus.check
  some (.gateway metadata)

def httpRoute? (j : Json) : Option WatchedObject := do
  let members ← j.members?
  let metadata ← members.required "metadata" Metadata.ofJson?
  let spec ← members.required "spec" RouteSpec.ofJson?
  let _ ← members.optional "status" Shape.routeStatus.check
  some (.httpRoute metadata spec)

/-- The object of a given kind that a document holds. -/
def ofJson? (kind : WatchedKind) (j : Json) : Option WatchedObject :=
  match kind with
  | .service => service? j
  | .gateway => gateway? j
  | .httpRoute => httpRoute? j
  | .policy kind => (Policy.ofJson? kind j).map .policy

end WatchedObject
end PolicyAttachment
