import PolicyAttachment.Spec.TargetRef

/-!
# Backend policies

A policy that configures the load balancer's backend for a Service: timeouts, logging, affinity,
draining, identity-aware access and capacity. Every setting is optional; absent ones are written as
`null`.
-/

namespace PolicyAttachment
set_option autoImplicit false

/-- How long a removed endpoint may finish its requests. -/
structure Draining where
  drainingTimeoutSec : Option Int
deriving DecidableEq, Repr, Inhabited

namespace Draining

/-- What is not set is written as `null`, here and in all settings of a backend. -/
def toJson (c : Draining) : Json :=
  .obj [("drainingTimeoutSec", Json.ofOption .int c.drainingTimeoutSec)]

/-- A member may be missing or `null`, here and in all settings of a backend. -/
def ofJson? (j : Json) : Option Draining := do
  let members ← j.members?
  let drainingTimeoutSec ← members.optional "drainingTimeoutSec" Json.int64?
  some { drainingTimeoutSec }

end Draining

/-- Which requests are logged, in parts per million. -/
structure Logging where
  enabled : Option Bool
  sampleRate : Option Int
deriving DecidableEq, Repr, Inhabited

namespace Logging

def toJson (l : Logging) : Json :=
  .obj [("enabled", Json.ofOption .bool l.enabled),
    ("sampleRate", Json.ofOption .int l.sampleRate)]

def ofJson? (j : Json) : Option Logging := do
  let members ← j.members?
  let enabled ← members.optional "enabled" Json.bool?
  let sampleRate ← members.optional "sampleRate" Json.int32?
  some { enabled, sampleRate }

end Logging

/-- How requests of one client stay on one endpoint. -/
structure SessionAffinity where
  type : Option String
  cookieTtlSec : Option Int
deriving DecidableEq, Repr, Inhabited

namespace SessionAffinity

/-- The ways to tell a client that are known. -/
def types : List String :=
  ["CLIENT_IP", "CLIENT_IP_PORT_PROTO", "CLIENT_IP_PROTO", "GENERATED_COOKIE", "HEADER_FIELD",
    "HTTP_COOKIE", "NONE"]

def toJson (s : SessionAffinity) : Json :=
  .obj [("type", Json.ofOption .str s.type),
    ("cookieTtlSec", Json.ofOption .int s.cookieTtlSec)]

def ofJson? (j : Json) : Option SessionAffinity := do
  let members ← j.members?
  let type ← members.optional "type" Json.string?
  let cookieTtlSec ← members.optional "cookieTtlSec" Json.int64?
  some { type, cookieTtlSec }

end SessionAffinity

/-- The name of the secret that holds the client's secret. -/
structure ClientSecret where
  name : Option String
deriving DecidableEq, Repr, Inhabited

namespace ClientSecret

def toJson (s : ClientSecret) : Json := .obj [("name", Json.ofOption .str s.name)]

def ofJson? (j : Json) : Option ClientSecret := do
  let members ← j.members?
  let name ← members.optional "name" Json.string?
  some { name }

end ClientSecret

/-- Identity-aware access. -/
structure IdentityAwareProxy where
  enabled : Option Bool
  clientSecret : Option ClientSecret
  clientId : Option String
deriving DecidableEq, Repr, Inhabited

namespace IdentityAwareProxy

/-- The members for the client have names of their own on the wire. -/
def toJson (p : IdentityAwareProxy) : Json :=
  .obj [("enabled", Json.ofOption .bool p.enabled),
    ("oauth2ClientSecret", Json.ofOption ClientSecret.toJson p.clientSecret),
    ("clientID", Json.ofOption .str p.clientId)]

def ofJson? (j : Json) : Option IdentityAwareProxy := do
  let members ← j.members?
  let enabled ← members.optional "enabled" Json.bool?
  let clientSecret ← members.optional "oauth2ClientSecret" ClientSecret.ofJson?
  let clientId ← members.optional "clientID" Json.string?
  some { enabled, clientSecret, clientId }

/-- The name of the secret, if the secret is given and has one. -/
def secretName (p : IdentityAwareProxy) : Option String := p.clientSecret.bind ClientSecret.name

/-- The client and its secret come together or not at all. -/
def validate (p : IdentityAwareProxy) : Except InvalidSpec Unit :=
  if p.clientId.isSome != p.secretName.isSome then .error .partialIapCredentials
  else Spec.requireLength "iap.clientID" p.clientId 1024

end IdentityAwareProxy

/-- The settings of a backend policy. -/
structure BackendSettings where
  logging : Option Logging
  sessionAffinity : Option SessionAffinity
  connectionDraining : Option Draining
  timeoutSec : Option Int
  securityPolicy : Option String
  iap : Option IdentityAwareProxy
  maxRatePerEndpoint : Option Int
  backendPreference : Option String
deriving DecidableEq, Repr, Inhabited

namespace BackendSettings

def toJson (c : BackendSettings) : Json :=
  .obj [("logging", Json.ofOption Logging.toJson c.logging),
    ("sessionAffinity", Json.ofOption SessionAffinity.toJson c.sessionAffinity),
    ("connectionDraining", Json.ofOption Draining.toJson c.connectionDraining),
    ("timeoutSec", Json.ofOption .int c.timeoutSec),
    ("securityPolicy", Json.ofOption .str c.securityPolicy),
    ("iap", Json.ofOption IdentityAwareProxy.toJson c.iap),
    ("maxRatePerEndpoint", Json.ofOption .int c.maxRatePerEndpoint),
    ("backendPreference", Json.ofOption .str c.backendPreference)]

def ofJson? (j : Json) : Option BackendSettings := do
  let members ← j.members?
  let logging ← members.optional "logging" Logging.ofJson?
  let sessionAffinity ← members.optional "sessionAffinity" SessionAffinity.ofJson?
  let connectionDraining ← members.optional "connectionDraining" Draining.ofJson?
  let timeoutSec ← members.optional "timeoutSec" Json.int64?
  let securityPolicy ← members.optional "securityPolicy" Json.string?
  let iap ← members.optional "iap" IdentityAwareProxy.ofJson?
  let maxRatePerEndpoint ← members.optional "maxRatePerEndpoint" Json.int64?
  let backendPreference ← members.optional "backendPreference" Json.string?
  some { logging, sessionAffinity, connectionDraining, timeoutSec, securityPolicy, iap,
         maxRatePerEndpoint, backendPreference }

/-- The rate is in parts per million. -/
def validateLogging : Option Logging → Except InvalidSpec Unit
  | some l => Spec.requireRange "logging.sampleRate" l.sampleRate 0 1000000
  | none => .ok ()

/-- At most an hour, counted in seconds. -/
def validateDraining : Option Draining → Except InvalidSpec Unit
  | some d =>
    Spec.requireRange "connectionDraining.drainingTimeoutSec" d.drainingTimeoutSec 0 3600
  | none => .ok ()

/-- One of the known ways, and a cookie that lives for two weeks at most. -/
def validateAffinity : Option SessionAffinity → Except InvalidSpec Unit
  | some a => do
    Spec.requireOneOf "sessionAffinity.type" a.type SessionAffinity.types
    Spec.requireRange "sessionAffinity.cookieTtlSec" a.cookieTtlSec 0 1209600
  | none => .ok ()

/-- Access is only checked where it is set up. -/
def validateIap : Option IdentityAwareProxy → Except InvalidSpec Unit
  | some p => p.validate
  | none => .ok ()

/-- What has no settings of its own comes first, then each of the others in its turn. -/
def validate (c : BackendSettings) : Except InvalidSpec Unit := do
  Spec.requireRange "timeoutSec" c.timeoutSec 1 2147483647
  Spec.requireRange "maxRatePerEndpoint" c.maxRatePerEndpoint 1 1000000000
  Spec.requireOneOf "backendPreference" c.backendPreference ["DEFAULT", "PREFERRED"]
  validateLogging c.logging
  validateDraining c.connectionDraining
  validateAffinity c.sessionAffinity
  validateIap c.iap

end BackendSettings

/-- What a backend policy asks for. -/
structure BackendPolicySpec where
  targetRef : TargetRef
  default : Option BackendSettings
deriving DecidableEq, Repr

namespace BackendPolicySpec

/-- The settings are left out where none are given. -/
def toJson (s : BackendPolicySpec) : Json :=
  .obj ([("targetRef", s.targetRef.toJson)]
    ++ Json.given "default" BackendSettings.toJson s.default)

/-- Only the target is required. -/
def ofJson? (j : Json) : Option BackendPolicySpec := do
  let members ← j.members?
  let targetRef ← members.required "targetRef" TargetRef.ofJson?
  let default ← members.optional "default" BackendSettings.ofJson?
  some { targetRef, default }

/-- The target comes first, then the settings, if any. -/
def validate (s : BackendPolicySpec) : Except InvalidSpec Unit := do
  s.targetRef.requireBackend
  match s.default with
  | some config => config.validate
  | none => .ok ()

end BackendPolicySpec
end PolicyAttachment
