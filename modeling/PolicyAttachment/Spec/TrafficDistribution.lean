import PolicyAttachment.Spec.TargetRef

/-!
# Traffic distribution policies

A policy that spreads traffic across the endpoints of up to sixteen Services of its own namespace.
-/

namespace PolicyAttachment
set_option autoImplicit false

/-- Whether backends are drained as they fill up. -/
structure CapacityDrain where
  enable : Option Bool
deriving DecidableEq, Repr, Inhabited

namespace CapacityDrain

def toJson (a : CapacityDrain) : Json :=
  .obj [("enableAutoCapacityDrain", Json.ofOption .bool a.enable)]

def ofJson? (j : Json) : Option CapacityDrain := do
  let members ← j.members?
  let enable ← members.optional "enableAutoCapacityDrain" Json.bool?
  some { enable }

end CapacityDrain

/-- The share of healthy endpoints below which traffic moves elsewhere, in percent. -/
structure Failover where
  healthThreshold : Option Int
deriving DecidableEq, Repr, Inhabited

namespace Failover

def toJson (f : Failover) : Json :=
  .obj [("failoverHealthThreshold", Json.ofOption .int f.healthThreshold)]

def ofJson? (j : Json) : Option Failover := do
  let members ← j.members?
  let healthThreshold ← members.optional "failoverHealthThreshold" Json.int32?
  some { healthThreshold }

end Failover

/-- The settings of a traffic distribution policy. -/
structure TrafficDistributionSettings where
  serviceLbAlgorithm : Option String
  localityLbAlgorithm : Option String
  autoCapacityDrain : Option CapacityDrain
  failoverConfig : Option Failover
deriving DecidableEq, Repr, Inhabited

namespace TrafficDistributionSettings

def serviceAlgorithms : List String :=
  ["SPRAY_TO_REGION", "WATERFALL_BY_ZONE", "WATERFALL_BY_REGION"]

def localityAlgorithms : List String :=
  ["ROUND_ROBIN", "LEAST_REQUEST", "RING_HASH", "RANDOM", "ORIGINAL_DESTINATION", "MAGLEV",
    "WEIGHTED_ROUND_ROBIN"]

def toJson (c : TrafficDistributionSettings) : Json :=
  .obj [("serviceLbAlgorithm", Json.ofOption .str c.serviceLbAlgorithm),
    ("localityLbAlgorithm", Json.ofOption .str c.localityLbAlgorithm),
    ("autoCapacityDrain", Json.ofOption CapacityDrain.toJson c.autoCapacityDrain),
    ("failoverConfig", Json.ofOption Failover.toJson c.failoverConfig)]

def ofJson? (j : Json) : Option TrafficDistributionSettings := do
  let members ← j.members?
  let serviceLbAlgorithm ← members.optional "serviceLbAlgorithm" Json.string?
  let localityLbAlgorithm ← members.optional "localityLbAlgorithm" Json.string?
  let autoCapacityDrain ← members.optional "autoCapacityDrain" CapacityDrain.ofJson?
  let failoverConfig ← members.optional "failoverConfig" Failover.ofJson?
  some { serviceLbAlgorithm, localityLbAlgorithm, autoCapacityDrain, failoverConfig }

def validateFailover : Option Failover → Except InvalidSpec Unit
  | some f =>
    Spec.requireRange "failoverConfig.failoverHealthThreshold" f.healthThreshold 0 100
  | none => .ok ()

def validate (c : TrafficDistributionSettings) : Except InvalidSpec Unit := do
  Spec.requireOneOf "serviceLbAlgorithm" c.serviceLbAlgorithm serviceAlgorithms
  Spec.requireOneOf "localityLbAlgorithm" c.localityLbAlgorithm localityAlgorithms
  validateFailover c.failoverConfig

end TrafficDistributionSettings

/-- What a traffic distribution policy asks for. -/
structure TrafficDistributionPolicySpec where
  targetRefs : List LocalTargetRef
  default : Option TrafficDistributionSettings
deriving DecidableEq, Repr

namespace TrafficDistributionPolicySpec

/-- The most Services one policy may target. -/
def maxTargetRefs : Nat := 16

def toJson (s : TrafficDistributionPolicySpec) : Json :=
  .obj ([("targetRefs", Json.ofList LocalTargetRef.toJson s.targetRefs)]
    ++ Json.given "default" TrafficDistributionSettings.toJson s.default)

def ofJson? (j : Json) : Option TrafficDistributionPolicySpec := do
  let members ← j.members?
  let targetRefs ← members.required "targetRefs" (Json.list? LocalTargetRef.ofJson?)
  let default ← members.optional "default" TrafficDistributionSettings.ofJson?
  some { targetRefs, default }

/-- Between one and sixteen references, all to Services. -/
def validateTargets (refs : List LocalTargetRef) : Except InvalidSpec Unit :=
  if refs.length = 0 ∨ maxTargetRefs < refs.length then
    .error (.targetRefCount maxTargetRefs refs.length)
  else
    match refs.find? fun t => !t.isTo .service with
    | some t => .error (.unsupportedTarget t.describeKind "Service")
    | none => .ok ()

def validate (s : TrafficDistributionPolicySpec) : Except InvalidSpec Unit := do
  validateTargets s.targetRefs
  match s.default with
  | some config => config.validate
  | none => .ok ()

end TrafficDistributionPolicySpec
end PolicyAttachment
