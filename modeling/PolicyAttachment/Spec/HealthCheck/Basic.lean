import PolicyAttachment.Json.Decode

/-!
# Health checks

A health check belongs to one protocol and carries that protocol's settings. On the wire it is a
discriminator beside one optional member per protocol, which can disagree; `HealthCheckWire.resolve`
accepts the wire form when the discriminator is given and exactly one member is, the one it names.
-/

namespace PolicyAttachment
set_option autoImplicit false

/-- The protocol of a health check. -/
inductive HealthCheckType where
  | tcp
  | http
  | https
  | http2
  | grpc
deriving DecidableEq, Repr

namespace HealthCheckType

/-- The spelling on the wire. -/
def wireName : HealthCheckType → String
  | tcp => "TCP"
  | http => "HTTP"
  | https => "HTTPS"
  | http2 => "HTTP2"
  | grpc => "GRPC"

/-- The name used in messages. -/
def title : HealthCheckType → String
  | tcp => "Tcp"
  | http => "Http"
  | https => "Https"
  | http2 => "Http2"
  | grpc => "Grpc"

/-- All protocols, in the order in which their members are looked at. -/
def all : List HealthCheckType := [tcp, http, https, http2, grpc]

def toJson (t : HealthCheckType) : Json := .str t.wireName

/-- Read where it stands, not from members that are set aside. -/
def ofJson? (j : Json) : Option HealthCheckType :=
  j.choice?.bind fun s => all.find? (·.wireName == s)

end HealthCheckType

/-- Where a check finds its port. -/
inductive PortSpecification where
  | fixedPort
  | namedPort
  | servingPort
deriving DecidableEq, Repr

namespace PortSpecification

/-- The spelling on the wire. -/
def wireName : PortSpecification → String
  | fixedPort => "USE_FIXED_PORT"
  | namedPort => "USE_NAMED_PORT"
  | servingPort => "USE_SERVING_PORT"

/-- All ways to find a port. -/
def all : List PortSpecification := [fixedPort, namedPort, servingPort]

def toJson (p : PortSpecification) : Json := .str p.wireName

/-- Read from the members shared by all protocols, which are set aside. -/
def ofJson? (j : Json) : Option PortSpecification :=
  j.choiceAside?.bind fun s => all.find? (·.wireName == s)

end PortSpecification

/-- The proxy header sent ahead of a check. -/
inductive ProxyHeader where
  | none
  | proxyV1
deriving DecidableEq, Repr

namespace ProxyHeader

/-- The spelling on the wire. -/
def wireName : ProxyHeader → String
  | .none => "NONE"
  | .proxyV1 => "PROXY_V1"

/-- All headers. -/
def all : List ProxyHeader := [.none, .proxyV1]

def toJson (p : ProxyHeader) : Json := .str p.wireName

def ofJson? (j : Json) : Option ProxyHeader :=
  j.choice?.bind fun s => all.find? (·.wireName == s)

end ProxyHeader

/-- The port settings that every protocol has. They live beside the protocol's own settings. -/
structure PortSettings where
  portSpecification : Option PortSpecification
  port : Option Int
  portName : Option String
deriving DecidableEq, Repr, Inhabited

namespace PortSettings

/-- The members of a port, for the protocol's own to follow. -/
def toMembers (c : PortSettings) : Json.Members :=
  Json.given "portSpecification" PortSpecification.toJson c.portSpecification
    ++ Json.given "port" .int c.port ++ Json.given "portName" .str c.portName

/-- Whose a member is shows only when all have been taken in, so all have to be legible. -/
def ofMembers? (members : Json.Members) : Option PortSettings := do
  guard (members.legibleExcept [])
  let portSpecification ← members.optional "portSpecification" PortSpecification.ofJson?
  let port ← members.optional "port" Json.int64?
  let portName ← members.optional "portName" Json.string?
  some { portSpecification, port, portName }

end PortSettings

/-- Settings of a TCP check. -/
structure TcpSettings where
  ports : PortSettings
  request : Option String
  response : Option String
  proxyHeader : Option ProxyHeader
deriving DecidableEq, Repr, Inhabited

namespace TcpSettings

/-- The settings of the port come first, on one level with the others. -/
def toJson (t : TcpSettings) : Json :=
  .obj (t.ports.toMembers ++ Json.given "request" .str t.request
    ++ Json.given "response" .str t.response
    ++ Json.given "proxyHeader" ProxyHeader.toJson t.proxyHeader)

/-- Members that are not of the port are left to the protocol. -/
def ofJson? (j : Json) : Option TcpSettings := do
  let members ← j.members?
  let ports ← PortSettings.ofMembers? members
  let request ← members.optional "request" Json.string?
  let response ← members.optional "response" Json.string?
  let proxyHeader ← members.optional "proxyHeader" ProxyHeader.ofJson?
  some { ports, request, response, proxyHeader }

end TcpSettings

/-- Settings of an HTTP check, plain, over TLS or with version 2. -/
structure HttpSettings where
  ports : PortSettings
  host : Option String
  requestPath : Option String
  proxyHeader : Option ProxyHeader
  response : Option String
deriving DecidableEq, Repr, Inhabited

namespace HttpSettings

def toJson (h : HttpSettings) : Json :=
  .obj (h.ports.toMembers ++ Json.given "host" .str h.host
    ++ Json.given "requestPath" .str h.requestPath
    ++ Json.given "proxyHeader" ProxyHeader.toJson h.proxyHeader
    ++ Json.given "response" .str h.response)

def ofJson? (j : Json) : Option HttpSettings := do
  let members ← j.members?
  let ports ← PortSettings.ofMembers? members
  let host ← members.optional "host" Json.string?
  let requestPath ← members.optional "requestPath" Json.string?
  let proxyHeader ← members.optional "proxyHeader" ProxyHeader.ofJson?
  let response ← members.optional "response" Json.string?
  some { ports, host, requestPath, proxyHeader, response }

end HttpSettings

/-- Settings of a gRPC check. -/
structure GrpcSettings where
  ports : PortSettings
  serviceName : Option String
deriving DecidableEq, Repr, Inhabited

namespace GrpcSettings

def toJson (g : GrpcSettings) : Json :=
  .obj (g.ports.toMembers ++ Json.given "grpcServiceName" .str g.serviceName)

def ofJson? (j : Json) : Option GrpcSettings := do
  let members ← j.members?
  let ports ← PortSettings.ofMembers? members
  let serviceName ← members.optional "grpcServiceName" Json.string?
  some { ports, serviceName }

end GrpcSettings

/-- A health check of one protocol. -/
inductive HealthCheck where
  | tcp (settings : TcpSettings)
  | http (settings : HttpSettings)
  | https (settings : HttpSettings)
  | http2 (settings : HttpSettings)
  | grpc (settings : GrpcSettings)
deriving DecidableEq, Repr

namespace HealthCheck

/-- The protocol that a check belongs to. -/
def type : HealthCheck → HealthCheckType
  | tcp _ => .tcp
  | http _ => .http
  | https _ => .https
  | http2 _ => .http2
  | grpc _ => .grpc

/-- The settings of the port, which every check has. -/
def ports : HealthCheck → PortSettings
  | tcp t => t.ports
  | http h | https h | http2 h => h.ports
  | grpc g => g.ports

end HealthCheck

/-- Why the wire form of a health check does not resolve. -/
inductive UnresolvedHealthCheck where
  | missingType
  | missingConfig (declared : HealthCheckType)
  | multipleConfigs (count : Nat)
  | mismatch (declared found : HealthCheckType)
deriving DecidableEq, Repr

/-- What is told about it. The count is that of the members that are given. -/
def UnresolvedHealthCheck.message : UnresolvedHealthCheck → String
  | missingType => "health check type must be specified"
  | missingConfig declared =>
    declared.title ++ " health check requires its protocol configuration"
  | multipleConfigs count =>
    "exactly one protocol configuration may be specified, got " ++ toString count
  | mismatch declared found =>
    "health check type is " ++ declared.title ++ " but " ++ found.title
      ++ " configuration was given"

/-- The wire form of a health check. -/
structure HealthCheckWire where
  type : Option HealthCheckType
  tcp : Option TcpSettings
  http : Option HttpSettings
  https : Option HttpSettings
  http2 : Option HttpSettings
  grpc : Option GrpcSettings
deriving DecidableEq, Repr, Inhabited

namespace HealthCheckWire

/-- Each member is written under the name of its protocol, and left out where it is not given. -/
def toJson (f : HealthCheckWire) : Json :=
  .obj (Json.given "type" HealthCheckType.toJson f.type
    ++ Json.given "tcpHealthCheck" TcpSettings.toJson f.tcp
    ++ Json.given "httpHealthCheck" HttpSettings.toJson f.http
    ++ Json.given "httpsHealthCheck" HttpSettings.toJson f.https
    ++ Json.given "http2HealthCheck" HttpSettings.toJson f.http2
    ++ Json.given "grpcHealthCheck" GrpcSettings.toJson f.grpc)

/-- Members that disagree are read all the same. -/
def ofJson? (j : Json) : Option HealthCheckWire := do
  let members ← j.members?
  let type ← members.optional "type" HealthCheckType.ofJson?
  let tcp ← members.optional "tcpHealthCheck" TcpSettings.ofJson?
  let http ← members.optional "httpHealthCheck" HttpSettings.ofJson?
  let https ← members.optional "httpsHealthCheck" HttpSettings.ofJson?
  let http2 ← members.optional "http2HealthCheck" HttpSettings.ofJson?
  let grpc ← members.optional "grpcHealthCheck" GrpcSettings.ofJson?
  some { type, tcp, http, https, http2, grpc }

/-- The checks that are given, in the order of the protocols. -/
def checks (f : HealthCheckWire) : List HealthCheck :=
  (f.tcp.map .tcp).toList ++ (f.http.map .http).toList ++ (f.https.map .https).toList
    ++ (f.http2.map .http2).toList ++ (f.grpc.map .grpc).toList

/-- The health check that the wire form stands for. -/
def resolve (f : HealthCheckWire) : Except UnresolvedHealthCheck HealthCheck :=
  match f.type with
  | none => .error .missingType
  | some declared =>
    match f.checks with
    | [] => .error (.missingConfig declared)
    | [check] => if check.type = declared then .ok check else .error (.mismatch declared check.type)
    | checks => .error (.multipleConfigs checks.length)

/-- The wire form of a health check: its type and the one member of that type. -/
def ofHealthCheck (check : HealthCheck) : HealthCheckWire where
  type := some check.type
  tcp := match check with
    | .tcp t => some t
    | _ => none
  http := match check with
    | .http h => some h
    | _ => none
  https := match check with
    | .https h => some h
    | _ => none
  http2 := match check with
    | .http2 h => some h
    | _ => none
  grpc := match check with
    | .grpc g => some g
    | _ => none

end HealthCheckWire
end PolicyAttachment
