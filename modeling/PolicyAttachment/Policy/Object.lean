import PolicyAttachment.StoredStatus
import PolicyAttachment.Policy.Kind
import PolicyAttachment.Policy.Metadata
import PolicyAttachment.Spec.Backend
import PolicyAttachment.Spec.Gateway
import PolicyAttachment.Spec.HealthCheck.Policy
import PolicyAttachment.Spec.SessionAffinity
import PolicyAttachment.Spec.TrafficDistribution

/-!
# Policy objects

A policy object has metadata, a spec and, once a controller has reported, a status. The five kinds
differ in the last two; `Policy.facts` is what they have in common for those who track policies.
-/

namespace PolicyAttachment
set_option autoImplicit false

/-- An object with a spec of type `σ` and a status of type `τ`. -/
structure PolicyObject (σ τ : Type) where
  metadata : Metadata
  spec : σ
  status : Option τ
deriving Repr

namespace PolicyObject

variable {σ τ : Type}

def toJson (kind : PolicyKind) (spec : σ → Json) (status : τ → Json) (o : PolicyObject σ τ) :
    Json :=
  .obj ([("apiVersion", .str policyApiVersion), ("kind", .str kind.name),
      ("metadata", o.metadata.toJson), ("spec", spec o.spec)]
    ++ Json.given "status" status o.status)

/-- API version and kind are not looked at. -/
def ofJson? (spec : Json → Option σ) (status : Json → Option τ) (j : Json) :
    Option (PolicyObject σ τ) := do
  let members ← j.members?
  let metadata ← members.required "metadata" Metadata.ofJson?
  let spec ← members.required "spec" spec
  let status ← members.optional "status" status
  some { metadata, spec, status }

end PolicyObject

/-- A policy object of one of the five kinds. -/
inductive Policy where
  | backend (object : PolicyObject BackendPolicySpec StatusBothWays)
  | gateway (object : PolicyObject GatewayPolicySpec StatusAsWhole)
  | healthCheck (object : PolicyObject HealthCheckPolicySpec StatusAsWhole)
  | sessionAffinity (object : PolicyObject SessionAffinityPolicySpec StatusAsWhole)
  | trafficDistribution (object : PolicyObject TrafficDistributionPolicySpec StatusByAncestor)
deriving Repr

/-- What there is to know about a policy to report its status. -/
structure PolicyFacts where
  created : Option Instant
  generation : Option Int
  resourceVersion : Option String
  /-- The targets, each once, in the order of the references. -/
  targets : List Target
  /-- Why the policy is invalid, if it is. -/
  invalid : Option String
  storedAncestors : StatusByAncestor
  storedConditions : List StoredCondition
deriving DecidableEq, Repr

namespace Policy

def kind : Policy → PolicyKind
  | backend _ => .backend
  | gateway _ => .gateway
  | healthCheck _ => .healthCheck
  | sessionAffinity _ => .sessionAffinity
  | trafficDistribution _ => .trafficDistribution

def metadata : Policy → Metadata
  | backend o => o.metadata
  | gateway o => o.metadata
  | healthCheck o => o.metadata
  | sessionAffinity o => o.metadata
  | trafficDistribution o => o.metadata

def targetRefs : Policy → List TargetRef
  | backend o => [o.spec.targetRef]
  | gateway o => [o.spec.targetRef]
  | healthCheck o => [o.spec.targetRef]
  | sessionAffinity o => [o.spec.targetRef]
  | trafficDistribution o => o.spec.targetRefs.map LocalTargetRef.toTargetRef

def validate : Policy → Except InvalidSpec Unit
  | backend o => o.spec.validate
  | gateway o => o.spec.validate
  | healthCheck o => o.spec.validate
  | sessionAffinity o => o.spec.validate
  | trafficDistribution o => o.spec.validate

/-- The stored status per ancestor; kinds that do not report there have none. -/
def storedAncestors : Policy → StatusByAncestor
  | backend o => ⟨(o.status.map StatusBothWays.ancestors).getD []⟩
  | trafficDistribution o => o.status.getD ⟨[]⟩
  | _ => ⟨[]⟩

/-- The stored conditions; kinds that do not report as a whole have none. -/
def storedConditions : Policy → List StoredCondition
  | backend o => (o.status.map StatusBothWays.conditions).getD []
  | gateway o => (o.status.map StatusAsWhole.conditions).getD []
  | healthCheck o => (o.status.map StatusAsWhole.conditions).getD []
  | sessionAffinity o => (o.status.map StatusAsWhole.conditions).getD []
  | trafficDistribution _ => []

/-- The targets of a policy in the namespace `ns`. -/
def targets (p : Policy) (ns : String) : List Target :=
  (p.targetRefs.map fun t => t.target ns).eraseDups

def invalid (p : Policy) : Option String :=
  match p.validate with
  | .ok () => none
  | .error e => some e.message

/-- The facts about a policy in the namespace `ns`. -/
def facts (p : Policy) (ns : String) : PolicyFacts where
  created := p.metadata.created
  generation := p.metadata.generation
  resourceVersion := p.metadata.resourceVersion
  targets := p.targets ns
  invalid := p.invalid
  storedAncestors := p.storedAncestors
  storedConditions := p.storedConditions

def toJson : Policy → Json
  | backend o => o.toJson .backend BackendPolicySpec.toJson StatusBothWays.toJson
  | gateway o => o.toJson .gateway GatewayPolicySpec.toJson StatusAsWhole.toJson
  | healthCheck o => o.toJson .healthCheck HealthCheckPolicySpec.toJson StatusAsWhole.toJson
  | sessionAffinity o =>
    o.toJson .sessionAffinity SessionAffinityPolicySpec.toJson StatusAsWhole.toJson
  | trafficDistribution o =>
    o.toJson .trafficDistribution TrafficDistributionPolicySpec.toJson StatusByAncestor.toJson

/-- The policy of a given kind that a document holds. -/
def ofJson? (kind : PolicyKind) (j : Json) : Option Policy :=
  match kind with
  | .backend =>
    (PolicyObject.ofJson? BackendPolicySpec.ofJson? StatusBothWays.ofJson? j).map backend
  | .gateway =>
    (PolicyObject.ofJson? GatewayPolicySpec.ofJson? StatusAsWhole.ofJson? j).map gateway
  | .healthCheck =>
    (PolicyObject.ofJson? HealthCheckPolicySpec.ofJson? StatusAsWhole.ofJson? j).map healthCheck
  | .sessionAffinity =>
    (PolicyObject.ofJson? SessionAffinityPolicySpec.ofJson? StatusAsWhole.ofJson? j).map
      sessionAffinity
  | .trafficDistribution =>
    (PolicyObject.ofJson? TrafficDistributionPolicySpec.ofJson? StatusByAncestor.ofJson? j).map
      trafficDistribution

end Policy
end PolicyAttachment
