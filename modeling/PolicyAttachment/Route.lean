import PolicyAttachment.Shape.Route
import PolicyAttachment.Spec.TargetRef

/-!
# Routes

An HTTP route connects the Gateways it attaches to with the Services it routes to. A policy on a
Service reports under the Gateways of the routes that lead there; every other target, and a Service
without routes, is its own ancestor.
-/

namespace PolicyAttachment
set_option autoImplicit false

/-- What a rule of a route sends requests to. -/
structure BackendRef where
  group : Option String
  kind : Option String
  ns : Option String
  name : String
deriving DecidableEq, Repr

namespace BackendRef

/-- Port and weight must read, but nothing depends on them. -/
def ofMembers? (members : Json.Members) : Option BackendRef := do
  let group ← members.optional "group" Json.string?
  let kind ← members.optional "kind" Json.string?
  let ns ← members.optional "namespace" Json.string?
  let name ← members.required "name" Json.string?
  let _ ← members.optional "port" Json.word16?
  let _ ← members.optional "weight" Json.word16?
  some { group, kind, ns, name }

/-- The Service of a route in the namespace `routeNs`. An absent group or kind refers to one, and
the core group has two spellings; other kinds are not followed. -/
def service? (b : BackendRef) (routeNs : String) : Option Target :=
  if GroupKind.normalGroup (b.group.getD "") = "" ∧ b.kind.getD "Service" = "Service" then
    some ⟨"", "Service", b.ns.getD routeNs, b.name⟩
  else none

end BackendRef

/-- The Gateway that a parent reference of a route in the namespace `routeNs` names. -/
def ParentReference.gateway? (p : ParentReference) (routeNs : String) : Option Target :=
  if p.group.getD gatewayGroup = gatewayGroup ∧ p.kind.getD "Gateway" = "Gateway" then
    some ⟨gatewayGroup, "Gateway", p.ns.getD routeNs, p.name⟩
  else none

/-- What a route says about its parents and backends. A backend that does not read as a reference is
none. -/
structure RouteSpec where
  parentRefs : List ParentReference
  backendRefs : List BackendRef
deriving DecidableEq, Repr

namespace RouteSpec

/-- A backend of a rule. Its filters have to read, but nothing depends on them. -/
def backend? (j : Json) : Option (Option BackendRef) := do
  let members ← j.members?
  let _ ← members.optional "filters" (Shape.listOf Shape.routeFilter).check
  some (BackendRef.ofMembers? members)

/-- The backends of one rule. -/
def rule? (j : Json) : Option (List BackendRef) := do
  let members ← j.members?
  let _ ← members.optional "matches" (Shape.listOf Shape.routeMatch).check
  let _ ← members.optional "filters" (Shape.listOf Shape.routeFilter).check
  let backends ← members.optional "backendRefs" (Json.list? backend?)
  some ((backends.getD []).filterMap id)

def ofJson? (j : Json) : Option RouteSpec := do
  let members ← j.members?
  let parentRefs ← members.optional "parentRefs" (Json.list? ParentReference.ofJson?)
  let _ ← members.optional "hostnames" (Shape.listOf Shape.text).check
  let rules ← members.optional "rules" (Json.list? rule?)
  some { parentRefs := parentRefs.getD [], backendRefs := (rules.getD []).flatten }

end RouteSpec

/-- The Gateways that a route attaches to and the Services it routes to. -/
structure RouteLinks where
  parents : List Target
  backends : List Target
deriving DecidableEq, Repr, Inhabited

namespace RouteLinks

/-- The references of a route in the namespace `ns`. -/
def ofSpec (ns : String) (spec : RouteSpec) : RouteLinks where
  parents := spec.parentRefs.filterMap fun p => p.gateway? ns
  backends := spec.backendRefs.filterMap fun b => b.service? ns

end RouteLinks

namespace Target

/-- Whether the target is a Service of the core group. -/
def isCoreService (t : Target) : Bool := t.group == "" && t.kind == "Service"

/-- The Gateways of the routes that lead to `t`, each once and in order. -/
def gatewaysOf (routes : List RouteLinks) (t : Target) : List Target :=
  ((routes.filter fun r => r.backends.contains t).flatMap RouteLinks.parents).eraseDups.mergeSort
    fun a b => (compare a b).isLE

/-- The ancestors that a policy on `t` reports under. -/
def ancestors (routes : List RouteLinks) (t : Target) : List Target :=
  if t.isCoreService then
    match gatewaysOf routes t with
    | [] => [t]
    | gateways => gateways
  else [t]

end Target
end PolicyAttachment
