import PolicyAttachment.Spec.TargetRef
import PolicyAttachment.Text.Decimal

/-!
# Health check policies

A policy that gives a Service its health check: how often to check, how long to wait and when to
change one's mind, and the check itself. Absent times count as five seconds.
-/

namespace PolicyAttachment
set_option autoImplicit false

namespace PortSettings

def validatePortName : Option String → Except InvalidSpec Unit
  | some name => do
    Spec.requireLength "portName" (some name) 63
    if Text.isPortLabel name.toList then .ok ()
    else .error (.malformed "portName" "must be a lowercase DNS label")
  | none => .ok ()

/-- The port settings that are given are the ones the specification calls for. -/
def validatePortSpecification (c : PortSettings) : Except InvalidSpec Unit :=
  match c.portSpecification with
  | some .fixedPort =>
    if c.port.isNone then .error (.malformed "portSpecification" "USE_FIXED_PORT requires port")
    else .ok ()
  | some .namedPort =>
    if c.portName.isNone then
      .error (.malformed "portSpecification" "USE_NAMED_PORT requires portName")
    else .ok ()
  | some .servingPort =>
    if c.port.isSome || c.portName.isSome then
      .error (.malformed "portSpecification" "USE_SERVING_PORT must not set port or portName")
    else .ok ()
  | none => .ok ()

def validate (c : PortSettings) : Except InvalidSpec Unit := do
  Spec.requireRange "port" c.port 1 65535
  validatePortName c.portName
  c.validatePortSpecification

end PortSettings

namespace HttpSettings

/-- A decimal number up to 255 without leading zeros. -/
def isOctet (cs : List Char) : Bool :=
  !cs.isEmpty && cs.length ≤ 3 && cs.all Char.isDigit && (cs.length == 1 || cs.head? != some '0')
    && Text.ofDigits cs ≤ 255

/-- Four octets with dots between them: an address, not a name. -/
def isAddress (cs : List Char) : Bool :=
  let parts := Text.fields '.' cs
  parts.length == 4 && parts.all isOctet

/-- A domain name that is not an address. -/
def isHostname (cs : List Char) : Bool := Text.isDomain cs && !isAddress cs

/-- A slash and any path or query characters. -/
def isRequestPath : List Char → Bool
  | c :: cs => c == '/' && cs.all fun d => Text.isPathCharacter d || d == '?'
  | [] => false

/-- An absent or empty host is left to the default. -/
def validateHost : Option String → Except InvalidSpec Unit
  | some host =>
    if host = "" then .ok ()
    else do
      Spec.requireLength "host" (some host) 2048
      if isHostname host.toList then .ok ()
      else .error (.malformed "host" "must be an RFC 1123 hostname")
  | none => .ok ()

/-- An absent or empty path is left to the default. -/
def validateRequestPath : Option String → Except InvalidSpec Unit
  | some path =>
    if path = "" then .ok ()
    else do
      Spec.requireLength "requestPath" (some path) 2048
      if isRequestPath path.toList then .ok ()
      else .error (.malformed "requestPath" "must be an absolute URL path")
  | none => .ok ()

def validate (h : HttpSettings) : Except InvalidSpec Unit := do
  validateHost h.host
  validateRequestPath h.requestPath
  Spec.requireAscii "response" h.response 1024

end HttpSettings

/-- The port settings first, then those of the protocol. -/
def HealthCheck.validate (check : HealthCheck) : Except InvalidSpec Unit := do
  check.ports.validate
  match check with
  | .tcp t =>
    Spec.requireAscii "request" t.request 1024
    Spec.requireAscii "response" t.response 1024
  | .http h | .https h | .http2 h => h.validate
  | .grpc g => Spec.requireAscii "grpcServiceName" g.serviceName 1024

/-- Whether checks are logged. -/
structure CheckLogging where
  enabled : Option Bool
deriving DecidableEq, Repr, Inhabited

namespace CheckLogging

def toJson (l : CheckLogging) : Json := .obj [("enabled", Json.ofOption .bool l.enabled)]

def ofJson? (j : Json) : Option CheckLogging := do
  let members ← j.members?
  let enabled ← members.optional "enabled" Json.bool?
  some { enabled }

end CheckLogging

/-- The settings of a health check policy. The check itself stays in its wire form, so that one that
does not resolve is an invalid spec and not an unreadable one. -/
structure HealthCheckSettings where
  checkIntervalSec : Option Int
  timeoutSec : Option Int
  unhealthyThreshold : Option Int
  healthyThreshold : Option Int
  config : Option HealthCheckWire
  logConfig : Option CheckLogging
deriving DecidableEq, Repr, Inhabited

namespace HealthCheckSettings

def toJson (c : HealthCheckSettings) : Json :=
  .obj [("checkIntervalSec", Json.ofOption .int c.checkIntervalSec),
    ("timeoutSec", Json.ofOption .int c.timeoutSec),
    ("unhealthyThreshold", Json.ofOption .int c.unhealthyThreshold),
    ("healthyThreshold", Json.ofOption .int c.healthyThreshold),
    ("config", Json.ofOption HealthCheckWire.toJson c.config),
    ("logConfig", Json.ofOption CheckLogging.toJson c.logConfig)]

def ofJson? (j : Json) : Option HealthCheckSettings := do
  let members ← j.members?
  let checkIntervalSec ← members.optional "checkIntervalSec" Json.int64?
  let timeoutSec ← members.optional "timeoutSec" Json.int64?
  let unhealthyThreshold ← members.optional "unhealthyThreshold" Json.int64?
  let healthyThreshold ← members.optional "healthyThreshold" Json.int64?
  let config ← members.optional "config" HealthCheckWire.ofJson?
  let logConfig ← members.optional "logConfig" CheckLogging.ofJson?
  some { checkIntervalSec, timeoutSec, unhealthyThreshold, healthyThreshold, config, logConfig }

/-- The seconds between checks. -/
def interval (c : HealthCheckSettings) : Int := c.checkIntervalSec.getD 5

/-- The seconds to wait for an answer. -/
def timeout (c : HealthCheckSettings) : Int := c.timeoutSec.getD 5

def validateTimeout (c : HealthCheckSettings) : Except InvalidSpec Unit :=
  if c.interval < c.timeout then .error (.timeoutExceedsInterval c.timeout c.interval) else .ok ()

def validateConfig (c : HealthCheckSettings) : Except InvalidSpec Unit :=
  match c.config with
  | none => .ok ()
  | some fields =>
    match fields.resolve with
    | .error error => .error (.healthCheck error)
    | .ok check => check.validate

def validate (c : HealthCheckSettings) : Except InvalidSpec Unit := do
  Spec.requireRange "checkIntervalSec" c.checkIntervalSec 1 300
  Spec.requireRange "timeoutSec" c.timeoutSec 1 300
  Spec.requireRange "unhealthyThreshold" c.unhealthyThreshold 1 10
  Spec.requireRange "healthyThreshold" c.healthyThreshold 1 10
  c.validateTimeout
  c.validateConfig

end HealthCheckSettings

/-- What a health check policy asks for. -/
structure HealthCheckPolicySpec where
  targetRef : TargetRef
  default : Option HealthCheckSettings
deriving DecidableEq, Repr

namespace HealthCheckPolicySpec

def toJson (s : HealthCheckPolicySpec) : Json :=
  .obj ([("targetRef", s.targetRef.toJson)]
    ++ Json.given "default" HealthCheckSettings.toJson s.default)

def ofJson? (j : Json) : Option HealthCheckPolicySpec := do
  let members ← j.members?
  let targetRef ← members.required "targetRef" TargetRef.ofJson?
  let default ← members.optional "default" HealthCheckSettings.ofJson?
  some { targetRef, default }

def validate (s : HealthCheckPolicySpec) : Except InvalidSpec Unit := do
  s.targetRef.requireBackend
  match s.default with
  | some config => config.validate
  | none => .ok ()

end HealthCheckPolicySpec
end PolicyAttachment
