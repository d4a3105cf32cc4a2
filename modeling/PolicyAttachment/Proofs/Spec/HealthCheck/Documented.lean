import PolicyAttachment.Proofs.Spec.Checks
import PolicyAttachment.Proofs.Spec.HealthCheck.Hosts
import PolicyAttachment.Proofs.Spec.HealthCheck.Union

/-!
# The health checks that are valid

What the settings of a health check policy may be, member by member, as documented. The validation
accepts these and no others: for each part of it there is a lemma that says what it accepts, and
`HealthCheckPolicySpec.validate_exactly` puts them together.
-/

namespace PolicyAttachment
set_option autoImplicit false

open Spec (IsAscii requireRange_eq_ok_iff requireAscii_eq_ok_iff requireForm_eq_ok_iff
  requireFormOrEmpty_eq_ok_iff)

/-! ### Ports -/

namespace PortSettings

/-- A port, its name, and what the specification calls for among these. -/
@[mk_iff]
structure Documented (c : PortSettings) : Prop where
  port : ∀ n ∈ c.port, 1 ≤ n ∧ n ≤ 65535
  portName : ∀ name ∈ c.portName, name.utf8ByteSize ≤ 63 ∧ Text.IsPortName name.toList
  fixedPort : c.portSpecification = some .fixedPort → c.port ≠ none
  namedPort : c.portSpecification = some .namedPort → c.portName ≠ none
  servingPort : c.portSpecification = some .servingPort → c.port = none ∧ c.portName = none

variable {c : PortSettings}

/-- A port name that is given has to be one. -/
theorem validatePortName_eq_ok_iff {o : Option String} : validatePortName o = .ok () ↔
    ∀ name ∈ o, name.utf8ByteSize ≤ 63 ∧ Text.IsPortName name.toList := by
  cases o with
  | none => simp [validatePortName]
  | some name =>
    rw [validatePortName, requireForm_eq_ok_iff, Text.isPortLabel_iff]
    simp

/-- What a port specification asks for has to be given. A serving port excludes both. -/
theorem validatePortSpecification_eq_ok_iff : c.validatePortSpecification = .ok () ↔
    (c.portSpecification = some .fixedPort → c.port ≠ none) ∧
    (c.portSpecification = some .namedPort → c.portName ≠ none) ∧
    (c.portSpecification = some .servingPort → c.port = none ∧ c.portName = none) := by
  obtain ⟨specification, port, portName⟩ := c
  rcases specification with _ | _ | _ | _ <;> cases port <;> cases portName <;>
    simp [validatePortSpecification]

/-- The settings of a port are accepted exactly if they are as documented. -/
theorem validate_eq_ok_iff : c.validate = .ok () ↔ c.Documented := by
  rw [validate, bind_eq_ok_iff, bind_eq_ok_iff, requireRange_eq_ok_iff, validatePortName_eq_ok_iff,
    validatePortSpecification_eq_ok_iff, documented_iff]

end PortSettings

/-! ### The protocols -/

/-- What is sent and what is answered is short and ASCII. -/
@[mk_iff]
structure TcpSettings.Documented (t : TcpSettings) : Prop where
  ports : t.ports.Documented
  request : ∀ s ∈ t.request, IsAscii 1024 s
  response : ∀ s ∈ t.response, IsAscii 1024 s

namespace HttpSettings

/-- An empty host or path is as good as none. -/
@[mk_iff]
structure Documented (h : HttpSettings) : Prop where
  ports : h.ports.Documented
  host : ∀ s ∈ h.host, s = "" ∨ s.utf8ByteSize ≤ 2048 ∧ IsHostname s.toList
  requestPath : ∀ s ∈ h.requestPath, s = "" ∨ s.utf8ByteSize ≤ 2048 ∧ IsRequestPath s.toList
  response : ∀ s ∈ h.response, IsAscii 1024 s

/-- A host that is given is empty or a host name that is short enough. -/
theorem validateHost_eq_ok_iff {o : Option String} : validateHost o = .ok () ↔
    ∀ s ∈ o, s = "" ∨ s.utf8ByteSize ≤ 2048 ∧ IsHostname s.toList := by
  cases o with
  | none => simp [validateHost]
  | some s =>
    rw [validateHost, requireFormOrEmpty_eq_ok_iff, isHostname_iff]
    simp

/-- A request path that is given is empty or a path that is short enough. -/
theorem validateRequestPath_eq_ok_iff {o : Option String} : validateRequestPath o = .ok () ↔
    ∀ s ∈ o, s = "" ∨ s.utf8ByteSize ≤ 2048 ∧ IsRequestPath s.toList := by
  cases o with
  | none => simp [validateRequestPath]
  | some s =>
    rw [validateRequestPath, requireFormOrEmpty_eq_ok_iff, isRequestPath_iff]
    simp

end HttpSettings

@[mk_iff]
structure GrpcSettings.Documented (g : GrpcSettings) : Prop where
  ports : g.ports.Documented
  serviceName : ∀ s ∈ g.serviceName, IsAscii 1024 s

namespace HealthCheck

/-- The settings of the protocol are as documented. -/
def Documented : HealthCheck → Prop
  | tcp t => t.Documented
  | http h | https h | http2 h => h.Documented
  | grpc g => g.Documented

/-- The settings of HTTP, HTTPS and HTTP2 are checked after those of their port. -/
theorem validate_http_eq_ok_iff {h : HttpSettings} :
    (do h.ports.validate; h.validate) = .ok () ↔ h.Documented := by
  rw [bind_eq_ok_iff, HttpSettings.validate, bind_eq_ok_iff, bind_eq_ok_iff,
    PortSettings.validate_eq_ok_iff, HttpSettings.validateHost_eq_ok_iff,
    HttpSettings.validateRequestPath_eq_ok_iff, requireAscii_eq_ok_iff, HttpSettings.documented_iff]

/-- A health check is accepted by the rules of its protocol. -/
theorem validate_eq_ok_iff {check : HealthCheck} :
    check.validate = .ok () ↔ check.Documented := by
  cases check with
  | tcp t =>
    rw [validate, bind_eq_ok_iff, bind_eq_ok_iff, ports, PortSettings.validate_eq_ok_iff,
      requireAscii_eq_ok_iff, requireAscii_eq_ok_iff, Documented, TcpSettings.documented_iff]
  | http h => exact validate_http_eq_ok_iff
  | https h => exact validate_http_eq_ok_iff
  | http2 h => exact validate_http_eq_ok_iff
  | grpc g =>
    rw [validate, bind_eq_ok_iff, ports, PortSettings.validate_eq_ok_iff, requireAscii_eq_ok_iff,
      Documented, GrpcSettings.documented_iff]

end HealthCheck

/-! ### Policies -/

/-- There is a type and exactly one check, which is of that type and as documented. -/
def HealthCheckWire.Documented (f : HealthCheckWire) : Prop :=
  ∃ check, f.Holds check ∧ check.Documented

/-- Seconds and thresholds are within bounds, and the time to wait does not exceed the time between
checks, where five seconds stand for either if it is not given. -/
@[mk_iff]
structure HealthCheckSettings.Documented (c : HealthCheckSettings) : Prop where
  checkIntervalSec : ∀ n ∈ c.checkIntervalSec, 1 ≤ n ∧ n ≤ 300
  timeoutSec : ∀ n ∈ c.timeoutSec, 1 ≤ n ∧ n ≤ 300
  unhealthyThreshold : ∀ n ∈ c.unhealthyThreshold, 1 ≤ n ∧ n ≤ 10
  healthyThreshold : ∀ n ∈ c.healthyThreshold, 1 ≤ n ∧ n ≤ 10
  timeout : c.timeoutSec.getD 5 ≤ c.checkIntervalSec.getD 5
  config : ∀ f ∈ c.config, f.Documented

namespace HealthCheckSettings

variable {c : HealthCheckSettings}

/-- A check is over by the time that the next one begins. Both times are 5 seconds unless they are
given. -/
theorem validateTimeout_eq_ok_iff :
    c.validateTimeout = .ok () ↔ c.timeoutSec.getD 5 ≤ c.checkIntervalSec.getD 5 := by
  rw [validateTimeout, interval, timeout]
  split <;> rename_i h
  · exact iff_of_false nofun (Int.not_le.2 h)
  · exact iff_of_true rfl (Int.not_lt.1 h)

/-- A union that is given has to resolve, and to a check that is accepted. -/
theorem validateConfig_eq_ok_iff :
    c.validateConfig = .ok () ↔ ∀ f ∈ c.config, f.Documented := by
  rw [validateConfig]
  cases c.config with
  | none => simp
  | some f =>
    simp only [Option.mem_some_iff, forall_eq', HealthCheckWire.Documented,
      ← HealthCheckWire.resolve_eq_ok_iff]
    cases f.resolve with
    | error e => simp
    | ok check => simp [HealthCheck.validate_eq_ok_iff]

/-- The settings of a health check are accepted exactly if they are as documented. -/
theorem validate_eq_ok_iff : c.validate = .ok () ↔ c.Documented := by
  simp only [validate, bind_eq_ok_iff, requireRange_eq_ok_iff, validateTimeout_eq_ok_iff,
    validateConfig_eq_ok_iff, documented_iff]

instance : DecidablePred Documented := fun _ => decidable_of_iff _ validate_eq_ok_iff

/-- A time to wait is too long for checks every five seconds, also where these are not mentioned. -/
example : ¬ Documented ⟨none, some 6, none, none, none, none⟩ := by decide

end HealthCheckSettings

namespace HealthCheckPolicySpec

/-- The target is a Service or an imported one, and the settings, if any, are as documented. -/
@[mk_iff]
structure Documented (s : HealthCheckPolicySpec) : Prop where
  targetRef : s.targetRef.IsBackend
  default : ∀ c ∈ s.default, c.Documented

/-- The validation accepts a spec exactly if it is as documented: its target, its times and thresholds,
the one check that it has, and the names, hosts and paths of this check. Which texts these are is also
what the patterns for them say. -/
theorem validate_exactly (s : HealthCheckPolicySpec) :
    (s.validate = .ok () ↔ s.Documented) ∧
    ∀ w : List Char, (w ∈ Text.portNamePattern.matches' ↔ Text.IsPortName w) ∧
      (w ∈ Text.domainPattern.matches' ↔ Text.IsDomain w) ∧
      (w ∈ HttpSettings.requestPathPattern.matches' ↔ HttpSettings.IsRequestPath w) := by
  refine ⟨?_, fun w => ⟨Text.mem_portNamePattern, Text.mem_domainPattern,
    HttpSettings.mem_requestPathPattern⟩⟩
  unfold validate
  rw [bind_eq_ok_iff, TargetRef.requireBackend_eq_ok_iff, documented_iff]
  cases s.default with
  | none => simp
  | some c => simp [HealthCheckSettings.validate_eq_ok_iff]

end HealthCheckPolicySpec
end PolicyAttachment
