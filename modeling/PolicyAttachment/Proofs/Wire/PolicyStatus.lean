import PolicyAttachment.Policy.Object
import PolicyAttachment.Proofs.Register.Stored
import PolicyAttachment.Proofs.Wire.StatusJson

/-!
# A policy with the status that was written

When a status is written to a policy, the object comes back at another version with what reads from the
document, and is otherwise as it was. `Policy.exists_withStatus?` says which facts it has then.
-/

namespace PolicyAttachment
set_option autoImplicit false

namespace PolicyObject

variable {σ τ : Type}

/-- The object at another version, with another status. -/
def restored (version : Option String) (status : τ) (o : PolicyObject σ τ) : PolicyObject σ τ :=
  { o with metadata := { o.metadata with resourceVersion := version }, status := some status }

/-- The object at another version, with the status that a document holds. -/
def withStatus? (decode : Json → Option τ) (version : Option String) (status : Json)
    (o : PolicyObject σ τ) : Option (PolicyObject σ τ) :=
  (decode status).map fun status => o.restored version status

/-- An object takes on the status that a document holds. -/
theorem withStatus?_of_decode {decode : Json → Option τ} {document : Json} {status : τ}
    (h : decode document = some status) (version : Option String) (o : PolicyObject σ τ) :
    o.withStatus? decode version document = some (o.restored version status) := by
  rw [withStatus?, h, Option.map_some]

end PolicyObject

namespace Policy

/-- The policy at another version, with the status that a document holds. -/
def withStatus? (version : Option String) (status : Json) : Policy → Option Policy
  | backend o => (o.withStatus? StatusBothWays.ofJson? version status).map backend
  | gateway o => (o.withStatus? StatusAsWhole.ofJson? version status).map gateway
  | healthCheck o => (o.withStatus? StatusAsWhole.ofJson? version status).map healthCheck
  | sessionAffinity o => (o.withStatus? StatusAsWhole.ofJson? version status).map sessionAffinity
  | trafficDistribution o =>
    (o.withStatus? StatusByAncestor.ofJson? version status).map trafficDistribution

/-- `p'` is `p` at another version, stored with the status `status`. -/
structure Restored (version : Option String) (status : WrittenStatus) (p p' : Policy) : Prop where
  kind : p'.kind = p.kind
  ns : p'.metadata.ns = p.metadata.ns
  name : p'.metadata.name = p.metadata.name
  facts : ∀ ns, p'.facts ns =
    { p.facts ns with
      resourceVersion := version
      storedAncestors := ⟨status.ancestors.getD []⟩
      storedConditions := status.conditions.getD [] }

/-- What is written for a policy reads as the same lists again. -/
theorem exists_withStatus? (version : Option String) {p : Policy} {ancestors : StatusByAncestor}
    {conditions : List StoredCondition}
    (h : (WrittenStatus.of p.kind ancestors conditions).Writable) :
    ∃ p', p.withStatus? version (WrittenStatus.of p.kind ancestors conditions).toJson = some p' ∧
      Restored version (.of p.kind ancestors conditions) p p' := by
  cases p with
  | backend o =>
    have reads := WrittenStatus.bothWays_toJson (h.ancestors _ rfl) (h.conditions _ rfl)
    rw [AncestorStatus.map_written_written, StoredCondition.map_written_written] at reads
    have restored := PolicyObject.withStatus?_of_decode reads version o
    exact ⟨_, congrArg (Option.map backend) restored, rfl, rfl, rfl, fun ns => rfl⟩
  | trafficDistribution o =>
    have reads := WrittenStatus.byAncestor_toJson (h.ancestors _ rfl)
    rw [AncestorStatus.map_written_written] at reads
    have restored := PolicyObject.withStatus?_of_decode reads version o
    exact ⟨_, congrArg (Option.map trafficDistribution) restored, rfl, rfl, rfl, fun ns => rfl⟩
  | gateway o | healthCheck o | sessionAffinity o =>
    have reads := WrittenStatus.asWhole_toJson (h.conditions _ rfl)
    rw [StoredCondition.map_written_written] at reads
    have restored := PolicyObject.withStatus?_of_decode reads version o
    exact ⟨_, congrArg (Option.map _) restored, rfl, rfl, rfl, fun ns => rfl⟩

end Policy
end PolicyAttachment
