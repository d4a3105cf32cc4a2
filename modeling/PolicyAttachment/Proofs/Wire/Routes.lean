import PolicyAttachment.Watched
import PolicyAttachment.Proofs.Wire.Members

/-!
# What a route names

A parent reference of a route names a Gateway, and a backend of one of its rules names a Service, if group
and kind are those or are left out; the namespace is the route's own unless another one is given. What
names neither says nothing. A route that reads names what the references in its document name:
`WatchedObject.names_iff_of_ofJson?`.
-/

namespace PolicyAttachment
set_option autoImplicit false

/-- In a route in the namespace `ns`, the reference names the Gateway `g`. -/
structure ParentReference.Names (p : ParentReference) (ns : String) (g : Target) : Prop where
  group : p.group ∈ [none, some gatewayGroup]
  kind : p.kind ∈ [none, some "Gateway"]
  target : g = ⟨gatewayGroup, "Gateway", p.ns.getD ns, p.name⟩

/-- In a route in the namespace `ns`, the backend names the Service `t`. -/
structure BackendRef.Names (b : BackendRef) (ns : String) (t : Target) : Prop where
  group : b.group ∈ [none, some "", some "core"]
  kind : b.kind ∈ [none, some "Service"]
  target : t = ⟨"", "Service", b.ns.getD ns, b.name⟩

theorem getD_eq_iff {α : Type} {o : Option α} {a : α} : o.getD a = a ↔ o ∈ [none, some a] := by
  cases o <;> simp

/-- The Gateway that a parent reference is read as is the one it names. -/
theorem ParentReference.gateway?_eq_some_iff {p : ParentReference} {ns : String} {g : Target} :
    p.gateway? ns = some g ↔ p.Names ns g := by
  rw [gateway?, Option.ite_none_right_eq_some, getD_eq_iff, getD_eq_iff, Option.some.injEq]
  exact ⟨fun h => ⟨h.1.1, h.1.2, h.2.symm⟩, fun h => ⟨⟨h.group, h.kind⟩, h.target.symm⟩⟩

/-- The core group has two names, and is meant where none is given. -/
theorem GroupKind.normalGroup_getD {group : Option String} :
    normalGroup (group.getD "") = "" ↔ group ∈ [none, some "", some "core"] := by
  cases group with
  | none => decide
  | some group =>
    rw [Option.getD_some, normalGroup]
    by_cases core : group = "core" <;> simp [core]

/-- The Service that a backend is read as is the one it names. -/
theorem BackendRef.service?_eq_some_iff {b : BackendRef} {ns : String} {t : Target} :
    b.service? ns = some t ↔ b.Names ns t := by
  rw [service?, Option.ite_none_right_eq_some, GroupKind.normalGroup_getD, getD_eq_iff,
    Option.some.injEq]
  exact ⟨fun h => ⟨h.1.1, h.1.2, h.2.symm⟩, fun h => ⟨⟨h.group, h.kind⟩, h.target.symm⟩⟩

namespace RouteSpec

/-- A parent reference names the Gateway `g`. -/
def NamesParent (spec : RouteSpec) (ns : String) (g : Target) : Prop :=
  ∃ p ∈ spec.parentRefs, p.Names ns g

/-- A backend of some rule names the Service `t`. -/
def NamesBackend (spec : RouteSpec) (ns : String) (t : Target) : Prop :=
  ∃ b ∈ spec.backendRefs, b.Names ns t

end RouteSpec

namespace RouteLinks

variable {spec : RouteSpec} {ns : String} {t : Target}

/-- The parents of a route are the Gateways that it names. -/
theorem mem_parents : t ∈ (ofSpec ns spec).parents ↔ spec.NamesParent ns t := by
  simp only [ofSpec, List.mem_filterMap, ParentReference.gateway?_eq_some_iff, RouteSpec.NamesParent]

/-- The backends of a route are the Services that it names. -/
theorem mem_backends : t ∈ (ofSpec ns spec).backends ↔ spec.NamesBackend ns t := by
  simp only [ofSpec, List.mem_filterMap, BackendRef.service?_eq_some_iff, RouteSpec.NamesBackend]

end RouteLinks

/-! ### The references in a document -/

namespace Json

variable {α : Type} {decode : Json → Option α} {name : String} {ms : Members}

theorem eq_obj_of_members? {j : Json} (h : j.members? = some ms) : j = .obj ms := by
  cases j <;> cases h
  rfl

/-- The items of a member that is a list. -/
def itemsAt (name : String) (j : Json) : List Json := ((j.member? name).bind items?).getD []

/-- Looking up a member finds the first value under its name. -/
theorem member?_obj (ms : Members) (name : String) :
    member? name (.obj ms) = (ms.valuesOf name).head? := by
  rw [member?]
  induction ms with
  | nil => rfl
  | cons m ms ih =>
    obtain ⟨other, j⟩ := m
    rw [Members.valuesOf_cons, List.lookup_cons]
    by_cases h : other = name
    · rw [h, beq_self_eq_true, if_pos rfl, List.head?_cons]
    · rw [beq_eq_false_iff_ne.2 (Ne.symm h), if_neg h, ih]

/-- The items of a list that may be left out are those of the member. -/
theorem mapM_itemsAt {o : Option (List α)} (h : ms.optional name (list? decode) = some o) :
    (itemsAt name (.obj ms)).mapM decode = some (o.getD []) := by
  rw [Members.optional_eq] at h
  rw [itemsAt, member?_obj]
  generalize ms.valuesOf name = values at h ⊢
  unfold Members.readOptional at h
  split at h
  · cases h
    rfl
  · unfold nullable? at h
    split at h
    · cases h
      rfl
    · obtain ⟨l, hl, rfl⟩ := Option.map_eq_some_iff.1 h
      obtain ⟨items, hitems, read⟩ := Option.bind_eq_some_iff.1 hl
      rw [List.head?_cons, Option.bind_some, hitems, Option.getD_some, read, Option.getD_some]
  · cases h

/-- A required member that reads is there and reads. -/
theorem member?_of_required {a : α} (h : ms.required name decode = some a) :
    ∃ j, member? name (.obj ms) = some j ∧ decode j = some a := by
  obtain ⟨o, once, h⟩ := Option.bind_eq_some_iff.1 h
  obtain ⟨j, rfl, read⟩ := Option.bind_eq_some_iff.1 h
  refine ⟨j, ?_, read⟩
  rw [member?_obj]
  unfold Members.once? at once
  split at once
  · cases once
  · rename_i only
    cases once
    rw [only, List.head?_cons]
  · cases once

end Json

namespace RouteSpec

/-- In a document of a spec, a parent reference names the Gateway `g`. -/
def NamesParentIn (j : Json) (ns : String) (g : Target) : Prop :=
  ∃ ref ∈ j.itemsAt "parentRefs", ∃ p, ParentReference.ofJson? ref = some p ∧ p.Names ns g

/-- In a document of a spec, a backend of some rule names the Service `t`. -/
def NamesBackendIn (j : Json) (ns : String) (t : Target) : Prop :=
  ∃ rule ∈ j.itemsAt "rules", ∃ ref ∈ rule.itemsAt "backendRefs",
    ∃ b, backend? ref = some (some b) ∧ b.Names ns t

variable {j : Json} {spec : RouteSpec}

/-- The backends of a rule are those that read as references. -/
theorem mem_of_rule? {l : List BackendRef} (h : rule? j = some l) {b : BackendRef} :
    b ∈ l ↔ ∃ ref ∈ j.itemsAt "backendRefs", backend? ref = some (some b) := by
  simp only [rule?, Option.bind_eq_bind, Option.bind_eq_some_iff, Option.some.injEq] at h
  obtain ⟨members, object, _, -, _, -, backends, hbackends, rfl⟩ := h
  obtain rfl := Json.eq_obj_of_members? object
  rw [List.mem_filterMap]
  simp only [id, exists_eq_right]
  exact Json.mem_of_mapM (Json.mapM_itemsAt hbackends)

/-- The references of a spec are those of its document, the backends those of all rules. -/
theorem mem_of_ofJson? (h : ofJson? j = some spec) :
    (∀ p, p ∈ spec.parentRefs ↔ ∃ ref ∈ j.itemsAt "parentRefs", ParentReference.ofJson? ref = some p) ∧
    ∀ b, b ∈ spec.backendRefs ↔
      ∃ rule ∈ j.itemsAt "rules", ∃ ref ∈ rule.itemsAt "backendRefs", backend? ref = some (some b) := by
  simp only [ofJson?, Option.bind_eq_bind, Option.bind_eq_some_iff, Option.some.injEq] at h
  obtain ⟨members, object, parents, hparents, _, -, rules, hrules, rfl⟩ := h
  obtain rfl := Json.eq_obj_of_members? object
  have parentsRead := Json.mapM_itemsAt hparents
  have rulesRead := Json.mapM_itemsAt hrules
  refine ⟨fun p => Json.mem_of_mapM parentsRead, fun b => ?_⟩
  rw [List.mem_flatten]
  constructor
  · rintro ⟨l, hl, hb⟩
    obtain ⟨rule, hrule, read⟩ := (Json.mem_of_mapM rulesRead).1 hl
    exact ⟨rule, hrule, (mem_of_rule? read).1 hb⟩
  · rintro ⟨rule, hrule, hb⟩
    obtain ⟨l, hl, read⟩ := Json.exists_of_mapM rulesRead hrule
    exact ⟨l, hl, (mem_of_rule? read).2 hb⟩

/-- A route that reads names what the references in the document of its spec name. -/
theorem namesIn_iff_of_ofJson? (h : ofJson? j = some spec) (ns : String) (t : Target) :
    (spec.NamesParent ns t ↔ NamesParentIn j ns t) ∧ (spec.NamesBackend ns t ↔ NamesBackendIn j ns t) := by
  obtain ⟨parents, backends⟩ := mem_of_ofJson? h
  constructor
  · constructor
    · rintro ⟨p, hp, names⟩
      obtain ⟨ref, href, read⟩ := (parents p).1 hp
      exact ⟨ref, href, p, read, names⟩
    · rintro ⟨ref, href, p, read, names⟩
      exact ⟨p, (parents p).2 ⟨ref, href, read⟩, names⟩
  · constructor
    · rintro ⟨b, hb, names⟩
      obtain ⟨rule, hrule, ref, href, read⟩ := (backends b).1 hb
      exact ⟨rule, hrule, ref, href, b, read, names⟩
    · rintro ⟨rule, hrule, ref, href, b, read, names⟩
      exact ⟨b, (backends b).2 ⟨rule, hrule, ref, href, read⟩, names⟩

end RouteSpec

/-- What a route names is what the references in its document name. -/
theorem WatchedObject.names_iff_of_ofJson? {document : Json} {metadata : Metadata} {spec : RouteSpec}
    (h : ofJson? .httpRoute document = some (.httpRoute metadata spec)) :
    ∃ j, document.member? "spec" = some j ∧ ∀ ns t,
      (spec.NamesParent ns t ↔ RouteSpec.NamesParentIn j ns t) ∧
      (spec.NamesBackend ns t ↔ RouteSpec.NamesBackendIn j ns t) := by
  simp only [ofJson?, httpRoute?, Option.bind_eq_bind, Option.bind_eq_some_iff, Option.some.injEq] at h
  obtain ⟨members, object, _, -, read, hread, _, -, same⟩ := h
  cases same
  obtain rfl := Json.eq_obj_of_members? object
  obtain ⟨j, there, reads⟩ := Json.member?_of_required hread
  exact ⟨j, there, RouteSpec.namesIn_iff_of_ofJson? reads⟩

end PolicyAttachment
