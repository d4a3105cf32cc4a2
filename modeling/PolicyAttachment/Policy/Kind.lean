/-!
# Policy kinds

The five kinds of policies, what they are called and where they report: per ancestor, as a whole, or
both.
-/

namespace PolicyAttachment
set_option autoImplicit false

/-- The API group of policies. -/
def policyGroup : String := "networking.gke.io"

/-- The API version of policies. -/
def policyApiVersion : String := "networking.gke.io/v1"

inductive PolicyKind where
  | backend
  | gateway
  | healthCheck
  | sessionAffinity
  | trafficDistribution
deriving DecidableEq, Repr, Inhabited

namespace PolicyKind

/-- All kinds, in their order. -/
def all : List PolicyKind := [backend, gateway, healthCheck, sessionAffinity, trafficDistribution]

theorem mem_all (k : PolicyKind) : k ∈ all := by
  cases k <;> decide

/-- The place of a kind among all kinds. -/
def rank : PolicyKind → Nat
  | backend => 0
  | gateway => 1
  | healthCheck => 2
  | sessionAffinity => 3
  | trafficDistribution => 4

instance : Ord PolicyKind := ⟨compareOn rank⟩

def name : PolicyKind → String
  | backend => "GCPBackendPolicy"
  | gateway => "GCPGatewayPolicy"
  | healthCheck => "HealthCheckPolicy"
  | sessionAffinity => "GCPSessionAffinityPolicy"
  | trafficDistribution => "GCPTrafficDistributionPolicy"

def ofName? (s : String) : Option PolicyKind := all.find? (·.name == s)

/-- A kind is found by its own name. -/
theorem ofName?_name (k : PolicyKind) : ofName? k.name = some k := by
  cases k <;> decide

/-- The name of the collection that objects of this kind live in. -/
def plural : PolicyKind → String
  | backend => "gcpbackendpolicies"
  | gateway => "gcpgatewaypolicies"
  | healthCheck => "healthcheckpolicies"
  | sessionAffinity => "gcpsessionaffinitypolicies"
  | trafficDistribution => "gcptrafficdistributionpolicies"

/-- Whether policies of this kind report per ancestor. -/
def reportsByAncestor : PolicyKind → Bool
  | backend | trafficDistribution => true
  | _ => false

/-- Whether policies of this kind report as a whole. -/
def reportsAsWhole : PolicyKind → Bool
  | trafficDistribution => false
  | _ => true

/-- Every kind reports somewhere. -/
theorem reports_somewhere (k : PolicyKind) : k.reportsByAncestor || k.reportsAsWhole := by
  cases k <;> rfl

end PolicyKind
end PolicyAttachment
