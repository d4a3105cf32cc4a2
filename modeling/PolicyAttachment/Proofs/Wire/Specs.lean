import PolicyAttachment.Spec.Backend
import PolicyAttachment.Spec.Gateway
import PolicyAttachment.Spec.SessionAffinity
import PolicyAttachment.Spec.TrafficDistribution
import PolicyAttachment.Proofs.Wire.Members
import Mathlib.Data.Option.Basic

/-!
# Specs read as they were written

The specs of backend, gateway, session affinity and traffic distribution policies, and all settings in
them, are exact: what is written for them reads as it was, as long as each number is one that its field
can hold. What can be read does hold such numbers.
-/

namespace PolicyAttachment
set_option autoImplicit false

open Json (Exact IsInt64 IsInt32 exact_int64 exact_int32)
open Json.Members (optional_eq)

/-! ### Target references -/

/-- Target references are read and written without loss. -/
theorem TargetRef.exact : Exact ofJson? toJson fun _ => True where
  reads t _ := by
    simp [toJson, ofJson?, Json.members?, optional_eq, Json.Members.defaulted, Json.Members.required,
      Json.Members.once?, Json.string?]
  fits _ _ _ := trivial
  notNull t := by simp [toJson]

/-- Local target references are read and written without loss. -/
theorem LocalTargetRef.exact : Exact ofJson? toJson fun _ => True where
  reads t _ := by
    simp [toJson, ofJson?, Json.members?, Json.Members.defaulted, Json.Members.required,
      Json.Members.once?, Json.string?]
  fits _ _ _ := trivial
  notNull t := by simp [toJson]

/-! ### Backend policies -/

namespace Draining

/-- The timeout is one its field can hold. -/
structure Fits (c : Draining) : Prop where
  drainingTimeoutSec : ∀ n ∈ c.drainingTimeoutSec, IsInt64 n

/-- Settings for draining are exact. -/
theorem exact : Exact ofJson? toJson Fits where
  reads c h := by
    simp [toJson, ofJson?, Json.members?, optional_eq,
      exact_int64.readOptional_ofOption h.drainingTimeoutSec]
  fits j c h := by
    simp only [ofJson?, Option.bind_eq_bind, Option.bind_eq_some_iff, Option.some.injEq] at h
    obtain ⟨_, -, timeout, htimeout, rfl⟩ := h
    exact ⟨exact_int64.fits_optional htimeout⟩
  notNull c := by simp [toJson]

end Draining

namespace Logging

/-- The rate is one its field can hold. -/
structure Fits (l : Logging) : Prop where
  sampleRate : ∀ n ∈ l.sampleRate, IsInt32 n

/-- Settings for logging are exact. -/
theorem exact : Exact ofJson? toJson Fits where
  reads l h := by
    simp [toJson, ofJson?, Json.members?, optional_eq, exact_int32.readOptional_ofOption h.sampleRate]
  fits j l h := by
    simp only [ofJson?, Option.bind_eq_bind, Option.bind_eq_some_iff, Option.some.injEq] at h
    obtain ⟨_, -, _, -, rate, hrate, rfl⟩ := h
    exact ⟨exact_int32.fits_optional hrate⟩
  notNull l := by simp [toJson]

end Logging

namespace SessionAffinity

/-- The time to live is one its field can hold. -/
structure Fits (s : SessionAffinity) : Prop where
  cookieTtlSec : ∀ n ∈ s.cookieTtlSec, IsInt64 n

/-- Settings for session affinity are exact. -/
theorem exact : Exact ofJson? toJson Fits where
  reads s h := by
    simp [toJson, ofJson?, Json.members?, optional_eq,
      exact_int64.readOptional_ofOption h.cookieTtlSec]
  fits j s h := by
    simp only [ofJson?, Option.bind_eq_bind, Option.bind_eq_some_iff, Option.some.injEq] at h
    obtain ⟨_, -, _, -, ttl, httl, rfl⟩ := h
    exact ⟨exact_int64.fits_optional httl⟩
  notNull s := by simp [toJson]

end SessionAffinity

/-- Names of secrets are read and written without loss. -/
theorem ClientSecret.exact : Exact ofJson? toJson fun _ => True where
  reads s _ := by simp [toJson, ofJson?, Json.members?, optional_eq]
  fits _ _ _ := trivial
  notNull s := by simp [toJson]

/-- Settings for the proxy are read and written without loss. -/
theorem IdentityAwareProxy.exact : Exact ofJson? toJson fun _ => True where
  reads p _ := by
    simp [toJson, ofJson?, Json.members?, optional_eq,
      ClientSecret.exact.readOptional_ofOption fun _ _ => trivial]
  fits _ _ _ := trivial
  notNull p := by simp [toJson]

namespace BackendSettings

/-- The numbers of all settings are ones their fields can hold. -/
structure Fits (c : BackendSettings) : Prop where
  logging : ∀ l ∈ c.logging, l.Fits
  sessionAffinity : ∀ s ∈ c.sessionAffinity, s.Fits
  connectionDraining : ∀ d ∈ c.connectionDraining, d.Fits
  timeoutSec : ∀ n ∈ c.timeoutSec, IsInt64 n
  maxRatePerEndpoint : ∀ n ∈ c.maxRatePerEndpoint, IsInt64 n

/-- The settings of a backend policy are exact, member by member. -/
theorem exact : Exact ofJson? toJson Fits where
  reads c h := by
    simp [toJson, ofJson?, Json.members?, optional_eq,
      Logging.exact.readOptional_ofOption h.logging,
      SessionAffinity.exact.readOptional_ofOption h.sessionAffinity,
      Draining.exact.readOptional_ofOption h.connectionDraining,
      exact_int64.readOptional_ofOption h.timeoutSec,
      IdentityAwareProxy.exact.readOptional_ofOption fun _ _ => trivial,
      exact_int64.readOptional_ofOption h.maxRatePerEndpoint]
  fits j c h := by
    simp only [ofJson?, Option.bind_eq_bind, Option.bind_eq_some_iff, Option.some.injEq] at h
    obtain ⟨_, -, logging, hlogging, affinity, haffinity, draining, hdraining, timeout, htimeout, _, -,
      _, -, rate, hrate, _, -, rfl⟩ := h
    exact
      { logging := Logging.exact.fits_optional hlogging
        sessionAffinity := SessionAffinity.exact.fits_optional haffinity
        connectionDraining := Draining.exact.fits_optional hdraining
        timeoutSec := exact_int64.fits_optional htimeout
        maxRatePerEndpoint := exact_int64.fits_optional hrate }
  notNull c := by simp [toJson]

end BackendSettings

namespace BackendPolicySpec

/-- The numbers of the settings are ones their fields can hold. -/
structure Fits (s : BackendPolicySpec) : Prop where
  default : ∀ c ∈ s.default, c.Fits

/-- Specs of backend policies are exact. -/
theorem exact : Exact ofJson? toJson Fits where
  reads s h := by
    simp [toJson, ofJson?, Json.members?, optional_eq, Json.Members.required, Json.Members.once?,
      TargetRef.exact.reads _ trivial, BackendSettings.exact.readOptional_given h.default]
  fits j s h := by
    simp only [ofJson?, Option.bind_eq_bind, Option.bind_eq_some_iff, Option.some.injEq] at h
    obtain ⟨_, -, _, -, settings, hsettings, rfl⟩ := h
    exact ⟨BackendSettings.exact.fits_optional hsettings⟩
  notNull s := by simp [toJson]

end BackendPolicySpec

/-! ### Gateway policies -/

namespace GatewaySettings

/-- An empty text is left out, and what is left out reads as the empty text. -/
theorem valuesOf_givenText (other name text : String) :
    Json.Members.valuesOf (givenText other text) name =
      if other = name ∧ text ≠ "" then [.str text] else [] := by
  by_cases h : text = "" <;> simp [givenText, h]

/-- The settings of a gateway policy are exact. -/
theorem exact : Exact ofJson? toJson fun _ => True where
  reads c _ := by
    obtain ⟨sslPolicy, allowGlobalAccess, region⟩ := c
    by_cases hs : sslPolicy = "" <;> by_cases hr : region = "" <;>
      simp [toJson, ofJson?, Json.members?, Json.Members.defaulted, Json.Members.once?,
        valuesOf_givenText, Json.string?, Json.bool?, hs, hr]
  fits _ _ _ := trivial
  notNull c := by simp [toJson]

end GatewaySettings

/-- Specs of gateway policies are read and written without loss. -/
theorem GatewayPolicySpec.exact : Exact ofJson? toJson fun _ => True where
  reads s _ := by
    simp [toJson, ofJson?, Json.members?, optional_eq, Json.Members.required, Json.Members.once?,
      TargetRef.exact.reads _ trivial, GatewaySettings.exact.readOptional_given fun _ _ => trivial]
  fits _ _ _ := trivial
  notNull s := by simp [toJson]

/-! ### Session affinity policies -/

namespace GeneratedCookie

/-- The time to live is one its field can hold. -/
structure Fits (c : GeneratedCookie) : Prop where
  cookieTtlSeconds : ∀ n ∈ c.cookieTtlSeconds, IsInt64 n

/-- Settings for a generated cookie are exact. -/
theorem exact : Exact ofJson? toJson Fits where
  reads c h := by
    simp [toJson, ofJson?, Json.members?, optional_eq,
      exact_int64.readOptional_ofOption h.cookieTtlSeconds]
  fits j c h := by
    simp only [ofJson?, Option.bind_eq_bind, Option.bind_eq_some_iff, Option.some.injEq] at h
    obtain ⟨_, -, ttl, httl, rfl⟩ := h
    exact ⟨exact_int64.fits_optional httl⟩
  notNull c := by simp [toJson]

/-- A cookie is written legibly, so it may stand among buffered members. -/
theorem isLegible_toJson (c : GeneratedCookie) : c.toJson.isLegible = true := by
  cases h : c.cookieTtlSeconds <;>
    simp [toJson, h, Json.ofOption, Json.isLegible, Json.allMembersLegible]

end GeneratedCookie

namespace SessionAffinityPolicySpec

/-- The time to live is one its field can hold. -/
structure Fits (s : SessionAffinityPolicySpec) : Prop where
  cookie : ∀ c ∈ s.cookie, c.Fits

/-- Specs of session affinity policies are exact, with the members that are buffered. -/
theorem exact : Exact ofJson? toJson Fits where
  reads s h := by
    have legible : Json.Members.legibleExcept
        (Json.given "statefulGeneratedCookie" GeneratedCookie.toJson s.cookie
          ++ [("targetRef", s.targetRef.toJson)]) ["targetRef"] = true := by
      cases s.cookie <;> simp [Json.Members.legibleExcept, Json.given, GeneratedCookie.isLegible_toJson]
    simp [toJson, ofJson?, Json.members?, optional_eq, Json.Members.required, Json.Members.once?,
      TargetRef.exact.reads _ trivial, GeneratedCookie.exact.readOptional_given h.cookie, legible,
      guard]
  fits j s h := by
    simp only [ofJson?, Option.bind_eq_bind, Option.bind_eq_some_iff, Option.some.injEq] at h
    obtain ⟨_, -, _, -, cookie, hcookie, _, -, rfl⟩ := h
    exact ⟨GeneratedCookie.exact.fits_optional hcookie⟩
  notNull s := by simp [toJson]

end SessionAffinityPolicySpec

/-! ### Traffic distribution policies -/

/-- Whether capacity is drained is read and written without loss. -/
theorem CapacityDrain.exact : Exact ofJson? toJson fun _ => True where
  reads a _ := by simp [toJson, ofJson?, Json.members?, optional_eq]
  fits _ _ _ := trivial
  notNull a := by simp [toJson]

namespace Failover

/-- The threshold is one its field can hold. -/
structure Fits (f : Failover) : Prop where
  healthThreshold : ∀ n ∈ f.healthThreshold, IsInt32 n

/-- Settings for failover are exact. -/
theorem exact : Exact ofJson? toJson Fits where
  reads f h := by
    simp [toJson, ofJson?, Json.members?, optional_eq,
      exact_int32.readOptional_ofOption h.healthThreshold]
  fits j f h := by
    simp only [ofJson?, Option.bind_eq_bind, Option.bind_eq_some_iff, Option.some.injEq] at h
    obtain ⟨_, -, threshold, hthreshold, rfl⟩ := h
    exact ⟨exact_int32.fits_optional hthreshold⟩
  notNull f := by simp [toJson]

end Failover

namespace TrafficDistributionSettings

/-- The threshold is one its field can hold. -/
structure Fits (c : TrafficDistributionSettings) : Prop where
  failoverConfig : ∀ f ∈ c.failoverConfig, f.Fits

/-- The settings of a traffic distribution policy are exact. -/
theorem exact : Exact ofJson? toJson Fits where
  reads c h := by
    simp [toJson, ofJson?, Json.members?, optional_eq,
      CapacityDrain.exact.readOptional_ofOption fun _ _ => trivial,
      Failover.exact.readOptional_ofOption h.failoverConfig]
  fits j c h := by
    simp only [ofJson?, Option.bind_eq_bind, Option.bind_eq_some_iff, Option.some.injEq] at h
    obtain ⟨_, -, _, -, _, -, _, -, failover, hfailover, rfl⟩ := h
    exact ⟨Failover.exact.fits_optional hfailover⟩
  notNull c := by simp [toJson]

end TrafficDistributionSettings

namespace TrafficDistributionPolicySpec

/-- The numbers of the settings are ones their fields can hold. -/
structure Fits (s : TrafficDistributionPolicySpec) : Prop where
  default : ∀ c ∈ s.default, c.Fits

/-- Specs of traffic distribution policies are exact. -/
theorem exact : Exact ofJson? toJson Fits where
  reads s h := by
    simp [toJson, ofJson?, Json.members?, optional_eq, Json.Members.required, Json.Members.once?,
      LocalTargetRef.exact.list.reads _ fun _ _ => trivial,
      TrafficDistributionSettings.exact.readOptional_given h.default]
  fits j s h := by
    simp only [ofJson?, Option.bind_eq_bind, Option.bind_eq_some_iff, Option.some.injEq] at h
    obtain ⟨_, -, _, -, settings, hsettings, rfl⟩ := h
    exact ⟨TrafficDistributionSettings.exact.fits_optional hsettings⟩
  notNull s := by simp [toJson]

end TrafficDistributionPolicySpec
end PolicyAttachment
