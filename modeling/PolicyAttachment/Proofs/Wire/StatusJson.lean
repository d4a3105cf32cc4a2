import PolicyAttachment.Policy.Written
import PolicyAttachment.Proofs.Wire.Members
import PolicyAttachment.Proofs.Wire.TimeText

/-!
# Reading a status that was written

A status that is written as a document reads as itself, but for the fractions of its times. This takes
times of the years 0 to 9999, and numbers in the range of their fields.
-/

namespace PolicyAttachment
set_option autoImplicit false

namespace ParentReference

/-- The port is in the range of its field. -/
def Writable (p : ParentReference) : Prop := ∀ n, p.port = some n → n < UInt16.size

/-- A reference to a parent reads as it was written. -/
theorem ofJson?_toJson {p : ParentReference} (h : p.Writable) : ofJson? p.toJson = some p := by
  have texts : ∀ o : Option String,
      Json.nullable? Json.string? (Json.ofOption .str o) = some (o.map id) :=
    fun o => Json.nullable?_ofOption (by simp) fun s _ => rfl
  have port : Json.nullable? Json.word16? (Json.ofOption (fun n : Nat => .int n) p.port) =
      some (p.port.map id) :=
    Json.nullable?_ofOption (by simp) fun n hn => Json.word16?_int (h n hn)
  simp only [Option.map_id, id_eq] at texts port
  simp [toJson, ofJson?, Json.members?, Json.Members.optional, Json.Members.required,
    Json.Members.once?, Json.Members.valuesOf, texts, port, Json.string?]

end ParentReference

namespace StoredCondition

/-- The time is of the years 0 to 9999, and the generation in the range of its field. -/
structure Writable (c : StoredCondition) : Prop where
  time : c.lastTransition.Writable
  generation : ∀ n, c.generation = some n →
    Int64.minValue.toInt ≤ n ∧ n ≤ Int64.maxValue.toInt

/-- A condition reads as it was written, without the fraction of its time. -/
theorem ofJson?_toJson {c : StoredCondition} (h : c.Writable) : ofJson? c.toJson = some c.written := by
  have time : Instant.ofJson? c.lastTransition.toJson = some c.lastTransition.truncated :=
    Instant.ofJson?_toJson h.time
  unfold written
  cases hg : c.generation with
  | none =>
    simp [toJson, ofJson?, text?, time?, hg, Json.given, Json.members?, Json.Members.last,
      Json.Members.valuesOf, Json.nullable?, Json.string?, time]
  | some n =>
    simp [toJson, ofJson?, text?, time?, hg, Json.given, Json.members?, Json.Members.last,
      Json.Members.valuesOf, Json.nullable?, Json.string?, time, Json.int64?_int (h.generation n hg)]

end StoredCondition

namespace AncestorStatus

/-- The reference and the conditions can be read again. -/
structure Writable (a : AncestorStatus) : Prop where
  ancestorRef : a.ancestorRef.Writable
  conditions : ∀ c ∈ a.conditions, c.Writable

/-- An entry reads as it was written, without the fractions of its times. -/
theorem ofJson?_toJson {a : AncestorStatus} (h : a.Writable) : ofJson? a.toJson = some a.written := by
  have ancestorRef := ParentReference.ofJson?_toJson h.ancestorRef
  have conditions : Json.list? StoredCondition.ofJson?
      (Json.ofList StoredCondition.toJson a.conditions) =
      some (a.conditions.map StoredCondition.written) :=
    Json.list?_ofList fun c hc => StoredCondition.ofJson?_toJson (h.conditions c hc)
  unfold written
  cases hl : a.conditions with
  | nil =>
    simp [toJson, ofJson?, hl, Json.givenList, Json.members?, Json.Members.required,
      Json.Members.defaulted, Json.Members.once?, Json.Members.valuesOf, ancestorRef, Json.string?]
  | cons c cs =>
    rw [hl] at conditions
    simp [toJson, ofJson?, hl, Json.givenList, Json.members?, Json.Members.required,
      Json.Members.defaulted, Json.Members.once?, Json.Members.valuesOf, ancestorRef, Json.string?,
      conditions]

end AncestorStatus

namespace WrittenStatus

/-- Both lists are in the range of what can be read again. -/
structure Writable (s : WrittenStatus) : Prop where
  ancestors : ∀ l, s.ancestors = some l → ∀ a ∈ l, a.Writable
  conditions : ∀ l, s.conditions = some l → ∀ c ∈ l, c.Writable

variable {l : List AncestorStatus} {cs : List StoredCondition}

/-- The entries of a status are read one by one. -/
theorem list?_ancestors (h : ∀ a ∈ l, a.Writable) :
    Json.list? AncestorStatus.ofJson? (Json.ofList AncestorStatus.toJson l) =
      some (l.map AncestorStatus.written) :=
  Json.list?_ofList fun a ha => AncestorStatus.ofJson?_toJson (h a ha)

/-- The conditions of a status are read one by one. -/
theorem list?_conditions (h : ∀ c ∈ cs, c.Writable) :
    Json.list? StoredCondition.ofJson? (Json.ofList StoredCondition.toJson cs) =
      some (cs.map StoredCondition.written) :=
  Json.list?_ofList fun c hc => StoredCondition.ofJson?_toJson (h c hc)

/-- The status of a policy that reports both ways reads as it was written. -/
theorem bothWays_toJson (h : ∀ a ∈ l, a.Writable) (h' : ∀ c ∈ cs, c.Writable) :
    StatusBothWays.ofJson? (toJson ⟨some l, some cs⟩) =
      some ⟨l.map AncestorStatus.written, cs.map StoredCondition.written⟩ := by
  simp [toJson, StatusBothWays.ofJson?, Json.given, Json.members?, Json.Members.defaulted,
    Json.Members.once?, Json.Members.valuesOf, list?_ancestors h, list?_conditions h']

/-- The status of a policy that reports as a whole reads as it was written. -/
theorem asWhole_toJson (h : ∀ c ∈ cs, c.Writable) :
    StatusAsWhole.ofJson? (toJson ⟨none, some cs⟩) = some ⟨cs.map StoredCondition.written⟩ := by
  simp [toJson, StatusAsWhole.ofJson?, Json.given, Json.members?, Json.Members.defaulted,
    Json.Members.once?, Json.Members.valuesOf, list?_conditions h]

/-- The status of a policy that reports per ancestor reads as it was written. -/
theorem byAncestor_toJson (h : ∀ a ∈ l, a.Writable) :
    StatusByAncestor.ofJson? (toJson ⟨some l, none⟩) = some ⟨l.map AncestorStatus.written⟩ := by
  simp [toJson, StatusByAncestor.ofJson?, Json.given, Json.members?, Json.Members.defaulted,
    Json.Members.once?, Json.Members.valuesOf, list?_ancestors h]

end WrittenStatus
end PolicyAttachment
