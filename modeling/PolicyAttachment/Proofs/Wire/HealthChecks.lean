import PolicyAttachment.Spec.HealthCheck.Policy
import PolicyAttachment.Proofs.Wire.Specs

/-!
# Health checks read as they were written

The port settings of a check live among the members of its protocol, and all of these members have to
be legible for them to be read. What is written for a check is: its members are texts and numbers.
-/

namespace PolicyAttachment
set_option autoImplicit false

open Json (Exact IsInt64 exact_int64)
open Json.Members (optional_eq legibleExcept)

/-! ### Choices -/

/-- The protocol of a check is read and written without loss. -/
theorem HealthCheckType.exact : Exact ofJson? toJson fun _ => True where
  reads t _ := by cases t <;> rfl
  fits _ _ _ := trivial
  notNull t := by simp [toJson]

/-- The way to choose a port is read and written without loss. -/
theorem PortSpecification.exact : Exact ofJson? toJson fun _ => True where
  reads p _ := by cases p <;> rfl
  fits _ _ _ := trivial
  notNull p := by simp [toJson]

/-- The header for a proxy is read and written without loss. -/
theorem ProxyHeader.exact : Exact ofJson? toJson fun _ => True where
  reads p _ := by cases p <;> rfl
  fits _ _ _ := trivial
  notNull p := by simp [toJson]

/-! ### Members set aside -/

namespace Json.Members

variable {α : Type} {names : List String}

/-- Members are legible if those of both parts are. -/
@[simp] theorem legibleExcept_append (ms ms' : Members) :
    legibleExcept (ms ++ ms') names = (legibleExcept ms names && legibleExcept ms' names) := by
  simp [legibleExcept]

/-- A member is legible if every value that it can have is. -/
theorem legibleExcept_given {encode : α → Json} (h : ∀ a, (encode a).isLegible = true)
    (name : String) (o : Option α) : legibleExcept (given name encode o) names = true := by
  cases o <;> simp [legibleExcept, given, h]

@[simp] theorem legibleExcept_text (name : String) (o : Option String) :
    legibleExcept (given name .str o) names = true :=
  legibleExcept_given (fun _ => rfl) name o

@[simp] theorem legibleExcept_number (name : String) (o : Option Int) :
    legibleExcept (given name .int o) names = true :=
  legibleExcept_given (fun _ => rfl) name o

end Json.Members

@[simp] theorem PortSpecification.legible_given (name : String) (o : Option PortSpecification) :
    legibleExcept (Json.given name toJson o) [] = true :=
  Json.Members.legibleExcept_given (fun _ => rfl) name o

@[simp] theorem ProxyHeader.legible_given (name : String) (o : Option ProxyHeader) :
    legibleExcept (Json.given name toJson o) [] = true :=
  Json.Members.legibleExcept_given (fun _ => rfl) name o

namespace PortSettings

/-- The port is one its field can hold. -/
structure Fits (c : PortSettings) : Prop where
  port : ∀ n ∈ c.port, IsInt64 n

/-- The settings of a port are written legibly, so they may stand among buffered members. -/
theorem legible_toMembers (c : PortSettings) : legibleExcept c.toMembers [] = true := by
  simp [toMembers]

/-- The settings among members that are legible and none of theirs. -/
theorem ofMembers?_toMembers {c : PortSettings} (h : c.Fits) {others : Json.Members}
    (legible : legibleExcept others [] = true)
    (apart : ∀ name ∈ ["portSpecification", "port", "portName"], others.valuesOf name = []) :
    ofMembers? (c.toMembers ++ others) = some c := by
  have whole : legibleExcept (c.toMembers ++ others) [] = true := by
    simp [legible_toMembers, legible]
  simp only [List.forall_mem_cons, List.not_mem_nil, false_implies, implies_true, and_true] at apart
  rw [ofMembers?]
  simp only [whole, guard, if_true, optional_eq]
  simp [toMembers, apart, PortSpecification.exact.readOptional_given fun _ _ => trivial,
    exact_int64.readOptional_given h.port]

/-- The port that is read is one the field can hold. -/
theorem fits_of_ofMembers? {members : Json.Members} {c : PortSettings}
    (h : ofMembers? members = some c) : c.Fits := by
  simp only [ofMembers?, Option.bind_eq_bind, Option.bind_eq_some_iff, Option.some.injEq] at h
  obtain ⟨_, -, _, -, port, hport, _, -, rfl⟩ := h
  exact ⟨exact_int64.fits_optional hport⟩

/-- The settings of a port leave other members to others. -/
@[simp] theorem valuesOf_toMembers {name : String}
    (h : name ∉ ["portSpecification", "port", "portName"]) (c : PortSettings) :
    Json.Members.valuesOf c.toMembers name = [] := by
  simp only [List.mem_cons, List.not_mem_nil, or_false, not_or] at h
  simp [toMembers, Ne.symm h.1, Ne.symm h.2.1, Ne.symm h.2.2]

end PortSettings

/-! ### The protocols -/

namespace TcpSettings

/-- The port is one its field can hold. -/
structure Fits (t : TcpSettings) : Prop where
  ports : t.ports.Fits

/-- Settings for TCP are exact, those of the port among their members. -/
theorem exact : Exact ofJson? toJson Fits where
  reads t h := by
    simp only [toJson, ofJson?, Json.members?, optional_eq, List.append_assoc, Option.bind_eq_bind,
      Option.bind_some]
    rw [PortSettings.ofMembers?_toMembers h.ports (by simp) (by simp)]
    simp [ProxyHeader.exact.readOptional_given fun _ _ => trivial]
  fits j t h := by
    simp only [ofJson?, Option.bind_eq_bind, Option.bind_eq_some_iff, Option.some.injEq] at h
    obtain ⟨_, -, ports, hports, _, -, _, -, _, -, rfl⟩ := h
    exact ⟨PortSettings.fits_of_ofMembers? hports⟩
  notNull t := by simp [toJson]

end TcpSettings

namespace HttpSettings

/-- The port is one its field can hold. -/
structure Fits (s : HttpSettings) : Prop where
  ports : s.ports.Fits

/-- Settings for HTTP, HTTPS and HTTP2 are exact, those of the port among their members. -/
theorem exact : Exact ofJson? toJson Fits where
  reads s h := by
    simp only [toJson, ofJson?, Json.members?, optional_eq, List.append_assoc, Option.bind_eq_bind,
      Option.bind_some]
    rw [PortSettings.ofMembers?_toMembers h.ports (by simp) (by simp)]
    simp [ProxyHeader.exact.readOptional_given fun _ _ => trivial]
  fits j s h := by
    simp only [ofJson?, Option.bind_eq_bind, Option.bind_eq_some_iff, Option.some.injEq] at h
    obtain ⟨_, -, ports, hports, _, -, _, -, _, -, _, -, rfl⟩ := h
    exact ⟨PortSettings.fits_of_ofMembers? hports⟩
  notNull s := by simp [toJson]

end HttpSettings

namespace GrpcSettings

/-- The port is one its field can hold. -/
structure Fits (g : GrpcSettings) : Prop where
  ports : g.ports.Fits

/-- Settings for gRPC are exact, those of the port among their members. -/
theorem exact : Exact ofJson? toJson Fits where
  reads g h := by
    simp only [toJson, ofJson?, Json.members?, optional_eq, Option.bind_eq_bind, Option.bind_some]
    rw [PortSettings.ofMembers?_toMembers h.ports (by simp) (by simp)]
    simp
  fits j g h := by
    simp only [ofJson?, Option.bind_eq_bind, Option.bind_eq_some_iff, Option.some.injEq] at h
    obtain ⟨_, -, ports, hports, _, -, rfl⟩ := h
    exact ⟨PortSettings.fits_of_ofMembers? hports⟩
  notNull g := by simp [toJson]

end GrpcSettings

/-! ### Health check policies -/

namespace HealthCheckWire

/-- The ports of all members are ones their fields can hold. -/
structure Fits (f : HealthCheckWire) : Prop where
  tcp : ∀ s ∈ f.tcp, s.Fits
  http : ∀ s ∈ f.http, s.Fits
  https : ∀ s ∈ f.https, s.Fits
  http2 : ∀ s ∈ f.http2, s.Fits
  grpc : ∀ s ∈ f.grpc, s.Fits

/-- The union is exact in whatever state it is, also with no member given or several. -/
theorem exact : Exact ofJson? toJson Fits where
  reads f h := by
    simp [toJson, ofJson?, Json.members?, optional_eq,
      HealthCheckType.exact.readOptional_given fun _ _ => trivial,
      TcpSettings.exact.readOptional_given h.tcp, HttpSettings.exact.readOptional_given h.http,
      HttpSettings.exact.readOptional_given h.https, HttpSettings.exact.readOptional_given h.http2,
      GrpcSettings.exact.readOptional_given h.grpc]
  fits j f h := by
    simp only [ofJson?, Option.bind_eq_bind, Option.bind_eq_some_iff, Option.some.injEq] at h
    obtain ⟨_, -, _, -, tcp, htcp, http, hhttp, https, hhttps, http2, hhttp2, grpc, hgrpc, rfl⟩ := h
    exact
      { tcp := TcpSettings.exact.fits_optional htcp
        http := HttpSettings.exact.fits_optional hhttp
        https := HttpSettings.exact.fits_optional hhttps
        http2 := HttpSettings.exact.fits_optional hhttp2
        grpc := GrpcSettings.exact.fits_optional hgrpc }
  notNull f := by simp [toJson]

end HealthCheckWire

/-- Whether checks are logged is read and written without loss. -/
theorem CheckLogging.exact : Exact ofJson? toJson fun _ => True where
  reads l _ := by simp [toJson, ofJson?, Json.members?, optional_eq]
  fits _ _ _ := trivial
  notNull l := by simp [toJson]

namespace HealthCheckSettings

/-- Intervals, thresholds and ports are ones their fields can hold. -/
structure Fits (c : HealthCheckSettings) : Prop where
  checkIntervalSec : ∀ n ∈ c.checkIntervalSec, IsInt64 n
  timeoutSec : ∀ n ∈ c.timeoutSec, IsInt64 n
  unhealthyThreshold : ∀ n ∈ c.unhealthyThreshold, IsInt64 n
  healthyThreshold : ∀ n ∈ c.healthyThreshold, IsInt64 n
  config : ∀ f ∈ c.config, f.Fits

/-- The settings of a health check are exact, the union among their members. -/
theorem exact : Exact ofJson? toJson Fits where
  reads c h := by
    simp [toJson, ofJson?, Json.members?, optional_eq,
      exact_int64.readOptional_ofOption h.checkIntervalSec,
      exact_int64.readOptional_ofOption h.timeoutSec,
      exact_int64.readOptional_ofOption h.unhealthyThreshold,
      exact_int64.readOptional_ofOption h.healthyThreshold,
      HealthCheckWire.exact.readOptional_ofOption h.config,
      CheckLogging.exact.readOptional_ofOption fun _ _ => trivial]
  fits j c h := by
    simp only [ofJson?, Option.bind_eq_bind, Option.bind_eq_some_iff, Option.some.injEq] at h
    obtain ⟨_, -, interval, hinterval, timeout, htimeout, unhealthy, hunhealthy, healthy, hhealthy,
      config, hconfig, _, -, rfl⟩ := h
    exact
      { checkIntervalSec := exact_int64.fits_optional hinterval
        timeoutSec := exact_int64.fits_optional htimeout
        unhealthyThreshold := exact_int64.fits_optional hunhealthy
        healthyThreshold := exact_int64.fits_optional hhealthy
        config := HealthCheckWire.exact.fits_optional hconfig }
  notNull c := by simp [toJson]

end HealthCheckSettings

namespace HealthCheckPolicySpec

/-- The numbers of the settings are ones their fields can hold. -/
structure Fits (s : HealthCheckPolicySpec) : Prop where
  default : ∀ c ∈ s.default, c.Fits

/-- Specs of health check policies are exact. -/
theorem exact : Exact ofJson? toJson Fits where
  reads s h := by
    simp [toJson, ofJson?, Json.members?, optional_eq, Json.Members.required, Json.Members.once?,
      TargetRef.exact.reads _ trivial, HealthCheckSettings.exact.readOptional_given h.default]
  fits j s h := by
    simp only [ofJson?, Option.bind_eq_bind, Option.bind_eq_some_iff, Option.some.injEq] at h
    obtain ⟨_, -, _, -, settings, hsettings, rfl⟩ := h
    exact ⟨HealthCheckSettings.exact.fits_optional hsettings⟩
  notNull s := by simp [toJson]

end HealthCheckPolicySpec
end PolicyAttachment
