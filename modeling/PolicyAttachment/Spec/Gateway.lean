import PolicyAttachment.Spec.TargetRef

/-!
# Gateway policies

A policy that configures the load balancer in front of a Gateway: its TLS policy, whether it is
reachable from other regions, and its region. Empty texts are left out when written.
-/

namespace PolicyAttachment
set_option autoImplicit false

/-- The settings of a gateway policy. -/
structure GatewaySettings where
  /-- A plain name, or a path that starts with `projects/`. -/
  sslPolicy : String
  allowGlobalAccess : Bool
  region : String
deriving DecidableEq, Repr, Inhabited

namespace GatewaySettings

/-- A text that is left out when it is empty. -/
def givenText (name text : String) : Json.Members :=
  if text = "" then [] else [(name, .str text)]

def toJson (c : GatewaySettings) : Json :=
  .obj (givenText "sslPolicy" c.sslPolicy ++ [("allowGlobalAccess", .bool c.allowGlobalAccess)]
    ++ givenText "region" c.region)

def ofJson? (j : Json) : Option GatewaySettings := do
  let members ← j.members?
  let sslPolicy ← members.defaulted "sslPolicy" Json.string? ""
  let allowGlobalAccess ← members.defaulted "allowGlobalAccess" Json.bool? false
  let region ← members.defaulted "region" Json.string? ""
  some { sslPolicy, allowGlobalAccess, region }

/-- Whether `cs` starts like a path but has fewer parts than one. -/
def isCutPath (cs : List Char) : Bool :=
  "projects/".toList.isPrefixOf cs && (Text.fields '/' cs).length < 4

def validate (c : GatewaySettings) : Except InvalidSpec Unit := do
  Spec.requireLength "sslPolicy" (some c.sslPolicy) 1024
  if isCutPath c.sslPolicy.toList then
    .error (.malformed "sslPolicy" "must be a policy name or a full projects/ path")
  else .ok ()

end GatewaySettings

/-- What a gateway policy asks for. -/
structure GatewayPolicySpec where
  targetRef : TargetRef
  default : Option GatewaySettings
deriving DecidableEq, Repr

namespace GatewayPolicySpec

def toJson (s : GatewayPolicySpec) : Json :=
  .obj ([("targetRef", s.targetRef.toJson)]
    ++ Json.given "default" GatewaySettings.toJson s.default)

def ofJson? (j : Json) : Option GatewayPolicySpec := do
  let members ← j.members?
  let targetRef ← members.required "targetRef" TargetRef.ofJson?
  let default ← members.optional "default" GatewaySettings.ofJson?
  some { targetRef, default }

def validate (s : GatewayPolicySpec) : Except InvalidSpec Unit := do
  s.targetRef.requireKind [.gateway] "Gateway"
  match s.default with
  | some config => config.validate
  | none => .ok ()

end GatewayPolicySpec
end PolicyAttachment
