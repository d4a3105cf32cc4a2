import PolicyAttachment.Proofs.Wire.HealthChecks

/-!
# Health checks and their wire form

The wire form has a place for the settings of each protocol, and `HealthCheckWire.check?` is the check
that stands there. It resolves to a check if it holds this one and no other,
`HealthCheckWire.resolve_eq_ok_iff`, and is then the wire form of the check: the settings of a protocol
neither get lost nor come to those of another. Read and written as documents, checks go the same way:
`HealthCheckWire.resolves_what_is_written`.
-/

namespace PolicyAttachment
set_option autoImplicit false

namespace HealthCheckWire

/-- The check that stands in the place of a protocol. -/
def check? (f : HealthCheckWire) : HealthCheckType → Option HealthCheck
  | .tcp => f.tcp.map .tcp
  | .http => f.http.map .http
  | .https => f.https.map .https
  | .http2 => f.http2.map .http2
  | .grpc => f.grpc.map .grpc

section Places

variable {f g : HealthCheckWire} {t : HealthCheckType} {check : HealthCheck}

/-- The checks that are configured, in the order of the protocols. -/
theorem checks_eq (f : HealthCheckWire) : f.checks = HealthCheckType.all.filterMap f.check? := by
  obtain ⟨_, _ | _, _ | _, _ | _, _ | _, _ | _⟩ := f <;> rfl

theorem type_of_check? (h : f.check? t = some check) : check.type = t := by
  cases t <;> obtain ⟨s, -, rfl⟩ := Option.map_eq_some_iff.1 h <;> rfl

theorem mem_checks_iff : check ∈ f.checks ↔ f.check? check.type = some check := by
  rw [checks_eq, List.mem_filterMap]
  constructor
  · rintro ⟨t, -, h⟩
    rwa [type_of_check? h]
  · intro h
    refine ⟨check.type, ?_, h⟩
    cases check.type <;> decide

/-- Besides the type there is nothing but the places of the protocols. -/
theorem ext_check? (type : f.type = g.type) (h : ∀ t, f.check? t = g.check? t) : f = g := by
  obtain ⟨_, _, _, _, _, _⟩ := f
  obtain ⟨_, _, _, _, _, _⟩ := g
  have tcp := Option.map_injective (fun _ _ => HealthCheck.tcp.inj) (h .tcp)
  have http := Option.map_injective (fun _ _ => HealthCheck.http.inj) (h .http)
  have https := Option.map_injective (fun _ _ => HealthCheck.https.inj) (h .https)
  have http2 := Option.map_injective (fun _ _ => HealthCheck.http2.inj) (h .http2)
  have grpc := Option.map_injective (fun _ _ => HealthCheck.grpc.inj) (h .grpc)
  cases type; cases tcp; cases http; cases https; cases http2; cases grpc
  rfl

/-- What is written has the one member of its protocol. -/
theorem check?_ofHealthCheck (check : HealthCheck) (t : HealthCheckType) :
    (ofHealthCheck check).check? t = if t = check.type then some check else none := by
  cases check <;> cases t <;> rfl

/-- What is written resolves to what it was written for. -/
theorem resolve_ofHealthCheck (check : HealthCheck) :
    (ofHealthCheck check).resolve = .ok check := by
  cases check <;> rfl

/-- A wire form that resolves has a type, and the check of that type is all it has. -/
theorem type_and_checks_of_resolve (h : f.resolve = .ok check) :
    f.type = some check.type ∧ f.checks = [check] := by
  unfold resolve at h
  split at h
  · cases h
  · rename_i declared type
    split at h
    · cases h
    · rename_i given checks
      split at h
      · rename_i same
        cases h
        exact ⟨type.trans (congrArg some same.symm), checks⟩
      · cases h
    · cases h

/-- The type and the check of that type, and no other check. -/
structure Holds (f : HealthCheckWire) (check : HealthCheck) : Prop where
  type : f.type = some check.type
  own : f.check? check.type = some check
  others : ∀ t, t ≠ check.type → f.check? t = none

/-- The check in any other place would be one of those given. -/
theorem holds_of_resolve (h : f.resolve = .ok check) : f.Holds check := by
  obtain ⟨type, checks⟩ := type_and_checks_of_resolve h
  have mem (c : HealthCheck) : f.check? c.type = some c ↔ c = check := by
    rw [← mem_checks_iff, checks, List.mem_singleton]
  refine ⟨type, (mem check).2 rfl, fun t other => ?_⟩
  cases given : f.check? t with
  | none => rfl
  | some c =>
    have own := type_of_check? given
    rw [← own] at given
    rw [(mem c).1 given] at own
    exact absurd own.symm other

/-- What holds one check of the stated type is how that check is written. -/
theorem Holds.eq (h : f.Holds check) : ofHealthCheck check = f := by
  refine ext_check? h.type.symm fun t => ?_
  rw [check?_ofHealthCheck]
  split
  · rename_i same
    rw [same, h.own]
  · rename_i other
    rw [h.others t other]

/-- The union resolves exactly to the one check that it holds. -/
theorem resolve_eq_ok_iff : f.resolve = .ok check ↔ f.Holds check := by
  constructor
  · exact holds_of_resolve
  · intro h
    rw [← h.eq]
    exact resolve_ofHealthCheck check

end Places

/-- The numbers of a check are as large as numbers on the wire can be. -/
theorem fits_ofHealthCheck_iff {check : HealthCheck} :
    (ofHealthCheck check).Fits ↔ check.ports.Fits := by
  constructor
  · intro h
    cases check with
    | tcp t => exact (h.tcp t rfl).ports
    | http s => exact (h.http s rfl).ports
    | https s => exact (h.https s rfl).ports
    | http2 s => exact (h.http2 s rfl).ports
    | grpc g => exact (h.grpc g rfl).ports
  · intro h
    cases check <;> constructor <;> intro s hs <;> cases hs <;> exact ⟨h⟩

/-- A check whose numbers fit is the one that its own wire form resolves to when it has been written
and read, and only such checks come out of documents. Whatever document a check comes out of, its wire
form is what was read there: its settings stand in the place of its protocol, and no other place has
any. -/
theorem resolves_what_is_written (check : HealthCheck) :
    (check.ports.Fits → ∃ f, ofJson? (ofHealthCheck check).toJson = some f ∧ f.resolve = .ok check) ∧
    ∀ j f, ofJson? j = some f → f.resolve = .ok check →
      check.ports.Fits ∧ ofHealthCheck check = f ∧ f.Holds check := by
  constructor
  · intro h
    exact ⟨_, exact.reads _ (fits_ofHealthCheck_iff.2 h), resolve_ofHealthCheck check⟩
  · intro j f read resolved
    have holds := resolve_eq_ok_iff.1 resolved
    refine ⟨?_, holds.eq, holds⟩
    rw [← fits_ofHealthCheck_iff, holds.eq]
    exact exact.fits j f read

/-- A check over gRPC with a port and a service. -/
theorem resolves_what_is_written_grpc :
    let check : HealthCheck := .grpc ⟨⟨some .fixedPort, some 8080, none⟩, some "shop.Cart"⟩
    let document : Json := .obj [("grpcHealthCheck", .obj [("grpcServiceName", .str "shop.Cart"),
      ("port", .int 8080), ("portSpecification", .str "USE_FIXED_PORT")]), ("type", .str "GRPC")]
    (∃ f, ofJson? (ofHealthCheck check).toJson = some f ∧ f.resolve = .ok check) ∧
      ofJson? document = some (ofHealthCheck check) ∧
      (ofHealthCheck check).check? .tcp = none := by
  intro check document
  have read : ofJson? document = some (ofHealthCheck check) := by decide +kernel
  obtain ⟨written, found⟩ := resolves_what_is_written check
  obtain ⟨fits, -, holds⟩ := found document _ read (resolve_ofHealthCheck check)
  exact ⟨written fits, read, holds.others .tcp nofun⟩

end HealthCheckWire
end PolicyAttachment
