import PolicyAttachment.Policy.Object
import PolicyAttachment.Proofs.Wire.Forms
import PolicyAttachment.Proofs.Wire.HealthChecks

/-!
# Objects read as they were written

The form of a policy object is put together from those of its metadata, its spec and its status. Of the
metadata, what others noted down on an object is left aside: name, namespace, version, generation and
the time of creation are covered.

`wire_forms_round_trip` is about every type that goes over the wire as part of a policy.
-/

namespace PolicyAttachment
set_option autoImplicit false

open Json (exact_int64)
open Json.Members (last_eq readLast_given)

/-! ### Metadata -/

namespace Metadata

/-- The generation and the time of creation are ones their fields can hold. -/
structure Fits (m : Metadata) : Prop where
  generation : ∀ n ∈ m.generation, Json.IsInt64 n
  created : ∀ t ∈ m.created, t.IsTime

/-- Metadata of which nothing is given but what identifies an object and dates it. -/
def Plain (m : Metadata) : Prop :=
  m = { name := m.name, ns := m.ns, resourceVersion := m.resourceVersion, generation := m.generation,
        created := m.created, uid := none, generateName := none, clusterName := none, selfLink := none,
        deleted := none, deletionGraceSeconds := none, labels := none, annotations := none,
        finalizers := none, owners := none, managedFields := none }

/-- The metadata without the fraction of its time. -/
def written (m : Metadata) : Metadata := { m with created := m.created.map Instant.truncated }

/-- What plain metadata is written as. -/
def plainMembers (m : Metadata) : Json.Members :=
  Json.given "name" .str m.name ++ Json.given "namespace" .str m.ns
    ++ Json.given "resourceVersion" .str m.resourceVersion
    ++ Json.given "generation" .int m.generation
    ++ Json.given "creationTimestamp" Instant.toJson m.created

/-- Of plain metadata nothing else is written. -/
theorem Plain.toJson_eq {m : Metadata} (h : m.Plain) : m.toJson = .obj m.plainMembers := by
  rw [h]
  simp [toJson, plainMembers, Json.given]

section Plain

variable {m : Metadata}

theorem last_text (o : Option String) :
    Json.Members.readLast Json.string? (o.map .str).toList = some o := by
  simpa using readLast_given (o := o) (f := id) Json.exact_string.notNull fun s _ => rfl

theorem last_generation (h : m.Fits) :
    m.plainMembers.last "generation" Json.int64? = some m.generation := by
  have read : Json.Members.readLast Json.int64? (m.generation.map .int).toList =
      some (m.generation.map id) :=
    readLast_given exact_int64.notNull fun n hn => exact_int64.reads n (h.generation n hn)
  simpa [last_eq, plainMembers] using read

/-- The time of creation is read without its fraction. -/
theorem last_created (h : m.Fits) (years : ∀ t ∈ m.created, t.InYears) :
    m.plainMembers.last "creationTimestamp" Instant.ofJson? =
      some (m.created.map Instant.truncated) := by
  have read : Json.Members.readLast Instant.ofJson? (m.created.map Instant.toJson).toList =
      some (m.created.map Instant.truncated) :=
    readLast_given (by simp [Instant.toJson]) fun t ht =>
      Instant.ofJson?_toJson ⟨years t ht, h.created t ht⟩
  simpa [last_eq, plainMembers] using read

/-- Of plain metadata nothing else is read. -/
theorem last_absent {α : Type} (name : String) (decode : Json → Option α)
    (h : name ∉ ["name", "namespace", "resourceVersion", "generation", "creationTimestamp"]) :
    m.plainMembers.last name decode = some none := by
  simp only [List.mem_cons, List.not_mem_nil, or_false, not_or] at h
  obtain ⟨h₁, h₂, h₃, h₄, h₅⟩ := h
  simp [last_eq, plainMembers, Ne.symm h₁, Ne.symm h₂, Ne.symm h₃, Ne.symm h₄, Ne.symm h₅]
  rfl

/-- Plain metadata reads as it was written, without the fraction of its time. -/
theorem ofJson?_toJson (fits : m.Fits) (plain : m.Plain) (years : ∀ t ∈ m.created, t.InYears) :
    ofJson? m.toJson = some m.written := by
  have name : m.plainMembers.last "name" Json.string? = some m.name := by
    simp [last_eq, plainMembers, last_text]
  have ns : m.plainMembers.last "namespace" Json.string? = some m.ns := by
    simp [last_eq, plainMembers, last_text]
  have version : m.plainMembers.last "resourceVersion" Json.string? = some m.resourceVersion := by
    simp [last_eq, plainMembers, last_text]
  rw [plain.toJson_eq, ofJson?]
  change Option.bind (some m.plainMembers) _ = _
  rw [Option.bind_some, name, ns, version, last_generation fits, last_created fits years,
    last_absent "uid" _ (by decide), last_absent "generateName" _ (by decide),
    last_absent "clusterName" _ (by decide), last_absent "selfLink" _ (by decide),
    last_absent "deletionTimestamp" _ (by decide),
    last_absent "deletionGracePeriodSeconds" _ (by decide), last_absent "labels" _ (by decide),
    last_absent "annotations" _ (by decide), last_absent "finalizers" _ (by decide),
    last_absent "ownerReferences" _ (by decide), last_absent "managedFields" _ (by decide)]
  rw [written, plain]
  rfl

end Plain

/-- The generation and the time of metadata that is read are ones their fields can hold. -/
theorem fits_of_ofJson? (j : Json) (m : Metadata) (h : ofJson? j = some m) : m.Fits := by
  unfold ofJson? at h
  dsimp only [bind] at h
  simp only [↓Option.bind_eq_some_iff, Option.some.injEq] at h
  obtain ⟨members, -, name, -, ns, -, uid, -, version, -, generation, hgeneration, created, hcreated,
    rest⟩ := h
  obtain ⟨generateName, -, clusterName, -, selfLink, -, deleted, -, grace, -, labels, -,
    annotations, -, finalizers, -, owners, -, managedFields, -, rfl⟩ := rest
  exact
    { generation := Json.Members.forall_mem_of_last exact_int64.fits hgeneration
      created := Json.Members.forall_mem_of_last Instant.isTime_of_ofJson? hcreated }

/-- The fraction of the time is not written. -/
theorem toJson_written (m : Metadata) : m.written.toJson = m.toJson := by
  have created : ∀ o : Option Instant,
      Json.given "creationTimestamp" Instant.toJson (o.map Instant.truncated) =
        Json.given "creationTimestamp" Instant.toJson o := by
    intro o
    cases o <;> simp [Json.given, Instant.toJson_truncated]
  simp [toJson, written, created]

theorem written_eq {m : Metadata} (whole : ∀ t ∈ m.created, t.IsWhole) : m.written = m := by
  have created : m.created.map Instant.truncated = m.created := by
    cases h : m.created with
    | none => rfl
    | some t => exact congrArg some (whole t h)
  rw [written, created]

end Metadata

/-! ### Objects -/

namespace PolicyObject

variable {σ τ : Type} {decode : Json → Option σ} {encode : σ → Json} {FitsSpec : σ → Prop}
  {status : WireForm τ} {cut : τ → τ} {kind : PolicyKind}

/-- Metadata, spec and status are ones their fields can hold. -/
structure Fits (FitsSpec : σ → Prop) (status : WireForm τ) (o : PolicyObject σ τ) : Prop where
  metadata : o.metadata.Fits
  spec : FitsSpec o.spec
  status : ∀ s ∈ o.status, status.Fits s

/-- The times of an object: when it was created, and those of its status. -/
def times (status : WireForm τ) (o : PolicyObject σ τ) : List Instant :=
  o.metadata.created.toList ++ o.status.toList.flatMap status.times

/-- The form of objects of a kind, by the form of their status and how their spec is written. -/
def form (kind : PolicyKind) (decode : Json → Option σ) (encode : σ → Json) (FitsSpec : σ → Prop)
    (status : WireForm τ) : WireForm (PolicyObject σ τ) where
  decode := ofJson? decode status.decode
  encode := toJson kind encode status.encode
  Fits := Fits FitsSpec status
  times := times status
  Covers o := o.metadata.Plain ∧ ∀ s ∈ o.status, status.Covers s

/-- What is left of an object whose status is `cut` when it is written. -/
def written (cut : τ → τ) (o : PolicyObject σ τ) : PolicyObject σ τ :=
  { o with metadata := o.metadata.written, status := o.status.map cut }

/-- Objects read as they were written, if specs and statuses do. -/
theorem form_lawful (spec : Json.Exact decode encode FitsSpec) (law : status.Lawful cut) :
    (form kind decode encode FitsSpec status).Lawful (written cut) where
  reads o fits covers years := by
    have created : ∀ t ∈ o.metadata.created, t.InYears := fun t ht =>
      years t (List.mem_append_left _ (Option.mem_toList.2 ht))
    have reported : ∀ s, o.status = some s → status.decode (status.encode s) = some (cut s) :=
      fun s hs => law.reads s (fits.status s hs) (covers.2 s hs) fun t ht =>
        years t (List.mem_append_right _ (List.mem_flatMap.2 ⟨s, Option.mem_toList.2 hs, ht⟩))
    have metadata := Metadata.ofJson?_toJson fits.metadata covers.1 created
    have stored : Json.Members.readOptional status.decode (o.status.map status.encode).toList =
        some (o.status.map cut) :=
      Json.Members.readOptional_given law.notNull reported
    simp [form, toJson, ofJson?, Json.members?, Json.Members.required, Json.Members.once?,
      Json.Members.optional_eq, metadata, spec.reads _ fits.spec, stored, written]
  fits j o h := by
    simp only [form, ofJson?, Option.bind_eq_bind, Option.bind_eq_some_iff, Option.some.injEq] at h
    obtain ⟨_, -, metadata, hmetadata, s, hs, stored, hstored, rfl⟩ := h
    exact
      { metadata := Json.Members.forall_of_required Metadata.fits_of_ofJson? hmetadata
        spec := spec.fits_required hs
        status := Json.Members.forall_mem_of_optional law.fits hstored }
  notNull o := by simp [form, toJson]
  encode_written o := by
    have stored : ∀ s : Option τ, Json.given "status" status.encode (s.map cut) =
        Json.given "status" status.encode s := by
      intro s
      cases s <;> simp [Json.given, law.encode_written]
    simp [form, toJson, written, Metadata.toJson_written, stored]
  written_eq o whole := by
    have created := Metadata.written_eq fun t ht =>
      whole t (List.mem_append_left _ (Option.mem_toList.2 ht))
    have stored : o.status.map cut = o.status := by
      cases hs : o.status with
      | none => rfl
      | some s =>
        exact congrArg some (law.written_eq s fun t ht =>
          whole t (List.mem_append_right _ (List.mem_flatMap.2 ⟨s, Option.mem_toList.2 hs, ht⟩)))
    rw [written, created, stored]

end PolicyObject

/-! ### Policies -/

namespace Policy

theorem backend_lawful : (PolicyObject.form .backend BackendPolicySpec.ofJson? BackendPolicySpec.toJson
    BackendPolicySpec.Fits StatusBothWays.form).Lawful (PolicyObject.written StatusBothWays.written) :=
  PolicyObject.form_lawful BackendPolicySpec.exact StatusBothWays.form_lawful

theorem gateway_lawful : (PolicyObject.form .gateway GatewayPolicySpec.ofJson? GatewayPolicySpec.toJson
    (fun _ => True) StatusAsWhole.form).Lawful (PolicyObject.written StatusAsWhole.written) :=
  PolicyObject.form_lawful GatewayPolicySpec.exact StatusAsWhole.form_lawful

theorem healthCheck_lawful : (PolicyObject.form .healthCheck HealthCheckPolicySpec.ofJson?
    HealthCheckPolicySpec.toJson HealthCheckPolicySpec.Fits StatusAsWhole.form).Lawful
      (PolicyObject.written StatusAsWhole.written) :=
  PolicyObject.form_lawful HealthCheckPolicySpec.exact StatusAsWhole.form_lawful

theorem sessionAffinity_lawful : (PolicyObject.form .sessionAffinity SessionAffinityPolicySpec.ofJson?
    SessionAffinityPolicySpec.toJson SessionAffinityPolicySpec.Fits StatusAsWhole.form).Lawful
      (PolicyObject.written StatusAsWhole.written) :=
  PolicyObject.form_lawful SessionAffinityPolicySpec.exact StatusAsWhole.form_lawful

theorem trafficDistribution_lawful : (PolicyObject.form .trafficDistribution
    TrafficDistributionPolicySpec.ofJson? TrafficDistributionPolicySpec.toJson
    TrafficDistributionPolicySpec.Fits StatusByAncestor.form).Lawful
      (PolicyObject.written StatusByAncestor.written) :=
  PolicyObject.form_lawful TrafficDistributionPolicySpec.exact StatusByAncestor.form_lawful

/-- The numbers and times of a policy are ones its fields can hold. -/
def Fits : Policy → Prop
  | backend o => o.Fits BackendPolicySpec.Fits StatusBothWays.form
  | gateway o => o.Fits (fun _ => True) StatusAsWhole.form
  | healthCheck o => o.Fits HealthCheckPolicySpec.Fits StatusAsWhole.form
  | sessionAffinity o => o.Fits SessionAffinityPolicySpec.Fits StatusAsWhole.form
  | trafficDistribution o => o.Fits TrafficDistributionPolicySpec.Fits StatusByAncestor.form

/-- When a policy was created, and the times of its status. -/
def times : Policy → List Instant
  | backend o => o.times StatusBothWays.form
  | gateway o | healthCheck o | sessionAffinity o => o.times StatusAsWhole.form
  | trafficDistribution o => o.times StatusByAncestor.form

/-- What is left of a policy once it is written. -/
def written : Policy → Policy
  | backend o => backend (o.written StatusBothWays.written)
  | gateway o => gateway (o.written StatusAsWhole.written)
  | healthCheck o => healthCheck (o.written StatusAsWhole.written)
  | sessionAffinity o => sessionAffinity (o.written StatusAsWhole.written)
  | trafficDistribution o => trafficDistribution (o.written StatusByAncestor.written)

/-- The form of the policies of a kind. -/
def form (kind : PolicyKind) : WireForm Policy where
  decode := ofJson? kind
  encode := toJson
  Fits p := p.kind = kind ∧ p.Fits
  times := times
  Covers p := p.metadata.Plain

/-- Policies of every kind read as they were written. -/
theorem form_lawful (kind : PolicyKind) : (form kind).Lawful written where
  reads p fits covers years := by
    obtain ⟨rfl, fits⟩ := fits
    have all : ∀ {τ : Type} (s : Option τ), ∀ t ∈ s, True := fun _ _ _ => trivial
    cases p with
    | backend o =>
      exact congrArg (Option.map backend) (backend_lawful.reads o fits ⟨covers, all o.status⟩ years)
    | gateway o =>
      exact congrArg (Option.map gateway) (gateway_lawful.reads o fits ⟨covers, all o.status⟩ years)
    | healthCheck o =>
      exact congrArg (Option.map healthCheck)
        (healthCheck_lawful.reads o fits ⟨covers, all o.status⟩ years)
    | sessionAffinity o =>
      exact congrArg (Option.map sessionAffinity)
        (sessionAffinity_lawful.reads o fits ⟨covers, all o.status⟩ years)
    | trafficDistribution o =>
      exact congrArg (Option.map trafficDistribution)
        (trafficDistribution_lawful.reads o fits ⟨covers, all o.status⟩ years)
  fits j p h := by
    cases kind with
    | backend =>
      obtain ⟨o, ho, rfl⟩ := Option.map_eq_some_iff.1 h
      exact ⟨rfl, backend_lawful.fits j o ho⟩
    | gateway =>
      obtain ⟨o, ho, rfl⟩ := Option.map_eq_some_iff.1 h
      exact ⟨rfl, gateway_lawful.fits j o ho⟩
    | healthCheck =>
      obtain ⟨o, ho, rfl⟩ := Option.map_eq_some_iff.1 h
      exact ⟨rfl, healthCheck_lawful.fits j o ho⟩
    | sessionAffinity =>
      obtain ⟨o, ho, rfl⟩ := Option.map_eq_some_iff.1 h
      exact ⟨rfl, sessionAffinity_lawful.fits j o ho⟩
    | trafficDistribution =>
      obtain ⟨o, ho, rfl⟩ := Option.map_eq_some_iff.1 h
      exact ⟨rfl, trafficDistribution_lawful.fits j o ho⟩
  notNull p := by cases p <;> simp [form, toJson, PolicyObject.toJson]
  encode_written p := by
    cases p with
    | backend o => exact backend_lawful.encode_written o
    | gateway o => exact gateway_lawful.encode_written o
    | healthCheck o => exact healthCheck_lawful.encode_written o
    | sessionAffinity o => exact sessionAffinity_lawful.encode_written o
    | trafficDistribution o => exact trafficDistribution_lawful.encode_written o
  written_eq p whole := by
    cases p with
    | backend o => exact congrArg backend (backend_lawful.written_eq o whole)
    | gateway o => exact congrArg gateway (gateway_lawful.written_eq o whole)
    | healthCheck o => exact congrArg healthCheck (healthCheck_lawful.written_eq o whole)
    | sessionAffinity o => exact congrArg sessionAffinity (sessionAffinity_lawful.written_eq o whole)
    | trafficDistribution o =>
      exact congrArg trafficDistribution (trafficDistribution_lawful.written_eq o whole)

end Policy

/-- The statuses, the entries and conditions in them, and the policies of every kind make a round trip
from either end. A value whose times are whole seconds of the years 0 to 9999 reads as it was written;
what was read from a document, fractions cut off, is written as the same document again and again. -/
theorem wire_forms_round_trip :
    StatusByAncestor.form.RoundTrips ∧ AncestorStatus.form.RoundTrips ∧
      StatusAsWhole.form.RoundTrips ∧ StatusBothWays.form.RoundTrips ∧
      StoredCondition.form.RoundTrips ∧ ∀ kind, (Policy.form kind).RoundTrips :=
  ⟨StatusByAncestor.form_lawful.roundTrips, AncestorStatus.form_lawful.roundTrips,
    StatusAsWhole.form_lawful.roundTrips, StatusBothWays.form_lawful.roundTrips,
    StoredCondition.form_lawful.roundTrips, fun kind => (Policy.form_lawful kind).roundTrips⟩

namespace Sample

/-- The leap second at the end of 2016. -/
def leapSecond : Instant := ⟨1483228799, 1000000000⟩

/-- A policy that was created in a leap second. -/
def stamped : PolicyObject GatewayPolicySpec StatusAsWhole where
  metadata :=
    { (default : Metadata) with ns := some "ns", name := some "p", created := some leapSecond }
  spec := ⟨⟨"gateway.networking.k8s.io", "Gateway", "g", none⟩, some ⟨"", true, "europe"⟩⟩
  status := none

/-- A condition with a fraction in the same leap second, by the clock of another zone. -/
def zoned : Json :=
  .obj [("type", .str "Attached"), ("lastTransitionTime", .str "2017-01-01T00:59:60.5+01:00")]

/-- What it reads as. -/
def unzoned : StoredCondition := ⟨"Attached", "", "", "", ⟨1483228799, 1500000000⟩, none⟩

end Sample

open Sample in
/-- A round trip from a policy and one from a document, both in a leap second. -/
theorem leap_second_round_trips :
    Policy.ofJson? .gateway (Policy.gateway stamped).toJson = some (.gateway stamped) ∧
      StoredCondition.ofJson? zoned = some unzoned ∧
      ∃ c, StoredCondition.ofJson? unzoned.toJson = some c ∧ c.toJson = unzoned.toJson := by
  have metadata : stamped.metadata.Fits :=
    { generation := fun n hn => nomatch hn
      created := fun t ht => by
        cases ht
        exact fun _ => rfl }
  have fits : stamped.Fits (fun _ => True) StatusAsWhole.form :=
    { metadata := metadata
      spec := trivial
      status := fun s hs => nomatch hs }
  have years : ∀ t ∈ (Policy.gateway stamped).times, t.InYears ∧ t.IsWhole := by
    intro t ht
    rw [List.mem_singleton.1 (ht : t ∈ [leapSecond])]
    exact ⟨by decide +kernel, rfl⟩
  have read : StoredCondition.ofJson? zoned = some unzoned := by decide +kernel
  obtain ⟨-, -, -, -, conditions, policies⟩ := wire_forms_round_trip
  refine ⟨(policies .gateway).value (.gateway stamped) ⟨rfl, fits⟩ rfl years, read,
    conditions.document zoned unzoned read trivial ?_⟩
  intro t ht
  rw [List.mem_singleton.1 (ht : t ∈ [unzoned.lastTransition])]
  decide +kernel

end PolicyAttachment
