import PolicyAttachment.Proofs.Session.Present
import PolicyAttachment.Proofs.Tracker.Ancestry
import PolicyAttachment.Proofs.Tracker.Precedence
import PolicyAttachment.Proofs.Wire.Routes

/-!
# The Gateways above a Service

Routes come and go, and a route may name the same Gateway twice, or name Gateways and Services in other
namespaces than its own. At every point of a run the ancestors of a Service are the Gateways from which a
route that is present leads to it, each once and in order; a Service to which none leads is its own
ancestor, and so is every other target: `Session.Run.ancestors_exactly`.
-/

namespace PolicyAttachment
set_option autoImplicit false

theorem Table.mem_values {κ ν : Type} [DecidableEq κ] {t : Table κ ν} {value : ν} :
    value ∈ t.values ↔ ∃ key, t.get? key = some value := by
  simp only [values, List.mem_map, Prod.exists, exists_eq_right, mem_entries_iff]

namespace Target

/-- The target comes earlier by its group, or in the same group by its kind, then by its namespace, then
by its name. -/
def Precedes (s t : Target) : Prop :=
  s.group < t.group ∨ s.group = t.group ∧ (s.kind < t.kind ∨ s.kind = t.kind ∧
    (s.ns < t.ns ∨ s.ns = t.ns ∧ s.name < t.name))

/-- The order that targets are sorted by is `Precedes`. -/
theorem compare_eq_lt {s t : Target} : compare s t = .lt ↔ s.Precedes t := by
  have lexicographic : compare s t = (compare s.group t.group).then
      ((compare s.kind t.kind).then ((compare s.ns t.ns).then (compare s.name t.name))) := rfl
  simp only [lexicographic, Ordering.then_eq_lt, compare_text_eq_lt, Std.LawfulEqCmp.compare_eq_iff_eq,
    Precedes]

variable {routes : List RouteLinks} {t : Target}

theorem isCoreService_iff : t.isCoreService = true ↔ t.group = "" ∧ t.kind = "Service" := by
  rw [isCoreService, Bool.and_eq_true, beq_iff_eq, beq_iff_eq]

/-- What is not a Service is its own ancestor. -/
theorem ancestors_of_not_service (h : ¬ (t.group = "" ∧ t.kind = "Service")) :
    t.ancestors routes = [t] := by
  rw [ancestors, if_neg (mt isCoreService_iff.1 h)]

/-- Without a Gateway above it, a Service is its own ancestor. -/
theorem ancestors_of_service (h : t.group = "" ∧ t.kind = "Service") :
    t.ancestors routes = if gatewaysOf routes t = [] then [t] else gatewaysOf routes t := by
  rw [ancestors, if_pos (isCoreService_iff.2 h)]
  cases gatewaysOf routes t <;> rfl

end Target

/-- A route that is present names the Gateway `g` as a parent and the Service `t` as a backend. -/
def Leads (es : List Event) (g t : Target) : Prop :=
  ∃ ns name metadata spec, present es .httpRoute ns name = some (.httpRoute metadata spec) ∧
    spec.NamesParent ns g ∧ spec.NamesBackend ns t

namespace Tracker

variable {es : List Event} {tr : Tracker}

/-- The routes that a tracker knows are those of the documents that are present. -/
theorem Reflects.mem_routes (h : Reflects es tr) {links : RouteLinks} : links ∈ tr.routes.values ↔
    ∃ ns name metadata spec, present es .httpRoute ns name = some (.httpRoute metadata spec) ∧
      links = .ofSpec ns spec := by
  rw [Table.mem_values]
  constructor
  · rintro ⟨route, known⟩
    by_cases named : ∃ ns name, WatchedKind.httpRoute.target? ns name = some route
    · obtain ⟨ns, name, hroute⟩ := named
      rw [h.routes ns name route hroute] at known
      obtain ⟨object, there, connects⟩ := Option.bind_eq_some_iff.1 known
      cases object <;> cases connects
      exact ⟨ns, name, _, _, there, rfl⟩
    · have none := h.noOtherRoutes route fun ns name hroute => named ⟨ns, name, hroute⟩
      rw [none] at known
      cases known
  · rintro ⟨ns, name, metadata, spec, there, rfl⟩
    refine ⟨⟨gatewayGroup, "HTTPRoute", ns, name⟩, ?_⟩
    rw [h.routes ns name _ rfl, there]
    rfl

/-- The Gateways of a Service are those from which a route leads to it. -/
theorem Reflects.mem_gatewaysOf_iff (h : Reflects es tr) {g t : Target} :
    g ∈ Target.gatewaysOf tr.routes.values t ↔ Leads es g t := by
  rw [Target.mem_gatewaysOf]
  constructor
  · rintro ⟨links, known, backend, parent⟩
    obtain ⟨ns, name, metadata, spec, there, rfl⟩ := h.mem_routes.1 known
    exact ⟨ns, name, metadata, spec, there, RouteLinks.mem_parents.1 parent,
      RouteLinks.mem_backends.1 backend⟩
  · rintro ⟨ns, name, metadata, spec, there, parent, backend⟩
    exact ⟨.ofSpec ns spec, h.mem_routes.2 ⟨ns, name, metadata, spec, there, rfl⟩,
      RouteLinks.mem_backends.2 backend, RouteLinks.mem_parents.2 parent⟩

end Tracker

namespace Session

variable {reporter : Reporter} {es : List Event} {ps : List Pass} {s : Session}

/-- An event about an object with a namespace and a name is dealt with. -/
theorem exists_step_event (s : Session) (now : Instant) {e : Event} {place : WatchedKind × String × String}
    (h : e.place? = some place) : ∃ s', s.step now (.event e) = .ok s' := by
  cases e with
  | applied object =>
    simp only [Event.place?] at h
    split at h
    · rename_i ns name hns hname
      simp only [step, Tracker.handle, hns, hname]
      exact ⟨_, rfl⟩
    · cases h
  | deleted kind ns name => exact ⟨_, rfl⟩

/-- At every point of a run, a target other than a Service is its own ancestor, and so is a Service to
which no route leads. Otherwise the ancestors of a Service are just the Gateways from which a route that is
present leads to it. They are in strict order. Every further event about a route is dealt with, and a
route names what the references in the document it was read from name. -/
theorem Run.ancestors_exactly (run : Run reporter es ps s) (t : Target) :
    let ancestors := t.ancestors s.tracker.routes.values
    (¬ (t.group = "" ∧ t.kind = "Service") → ancestors = [t]) ∧
    (t.group = "" ∧ t.kind = "Service" →
      ((¬ ∃ g, Leads es g t) → ancestors = [t]) ∧
      ((∃ g, Leads es g t) → ∀ g, g ∈ ancestors ↔ Leads es g t)) ∧
    ancestors.Pairwise Target.Precedes ∧
    (∀ now e ns name, e.place? = some (.httpRoute, ns, name) →
      ∃ s', s.step now (.event e) = .ok s') ∧
    ∀ document metadata spec,
      WatchedObject.ofJson? .httpRoute document = some (.httpRoute metadata spec) →
      ∃ j, document.member? "spec" = some j ∧ ∀ ns t,
        (spec.NamesParent ns t ↔ RouteSpec.NamesParentIn j ns t) ∧
        (spec.NamesBackend ns t ↔ RouteSpec.NamesBackendIn j ns t) := by
  intro ancestors
  have gateways {g : Target} : g ∈ Target.gatewaysOf s.tracker.routes.values t ↔ Leads es g t :=
    run.reflects.mem_gatewaysOf_iff
  refine ⟨Target.ancestors_of_not_service, fun service => ⟨?_, ?_⟩, ?_, ?_, ?_⟩
  · intro none
    have empty : Target.gatewaysOf s.tracker.routes.values t = [] :=
      List.eq_nil_iff_forall_not_mem.2 fun g hg => none ⟨g, gateways.1 hg⟩
    exact (Target.ancestors_of_service service).trans (if_pos empty)
  · rintro ⟨g, leads⟩ other
    have nonempty : Target.gatewaysOf s.tracker.routes.values t ≠ [] :=
      List.ne_nil_of_mem (gateways.2 leads)
    rw [show ancestors = _ from (Target.ancestors_of_service service).trans (if_neg nonempty), gateways]
  · exact (Target.pairwise_ancestors _ t).imp Target.compare_eq_lt.1
  · intro now e ns name place
    exact s.exists_step_event now place
  · intro document metadata spec read
    exact WatchedObject.names_iff_of_ofJson? read

end Session

/-! A Service that routes of two namespaces lead to, after another route was deleted. -/

namespace Sample

/-- The Service "web". -/
def web : Target := ⟨"", "Service", "store", "web"⟩

/-- A Gateway, as a target. -/
def gatewayIn (ns name : String) : Target := ⟨gatewayGroup, "Gateway", ns, name⟩

def parent (ns : Option String) (name : String) : ParentReference := ⟨none, none, ns, name, none, none⟩

/-- Names one Gateway twice and one of another namespace, and a Service as a parent. -/
def checkout : RouteSpec where
  parentRefs :=
    [parent none "external", parent (some "infra") "internal", parent (some "store") "external",
      { parent none "mesh" with group := some "", kind := some "Service" }]
  backendRefs := [⟨none, none, none, "web"⟩]

/-- Leads to a Service of another namespace, and to one that is imported. -/
def campaign : RouteSpec where
  parentRefs := [parent none "edge"]
  backendRefs :=
    [⟨some "core", some "Service", some "store", "web"⟩,
      ⟨some "net.gke.io", some "ServiceImport", some "store", "web"⟩]

/-- A route to the Service that does not stay. -/
def legacy : RouteSpec where
  parentRefs := [parent none "legacy"]
  backendRefs := [⟨some "", none, none, "web"⟩]

def routeEvent (ns name : String) (spec : RouteSpec) : Event :=
  .applied (.httpRoute { (default : Metadata) with ns := some ns, name := some name } spec)

/-- The routes as they come and go. -/
def routes : List Event :=
  [routeEvent "store" "checkout" checkout, routeEvent "store" "legacy" legacy,
    routeEvent "ads" "campaign" campaign, .deleted .httpRoute "store" "legacy"]

def routed : Session :=
  let m := start.moment now
  let route (ns name : String) : Target := ⟨gatewayGroup, "HTTPRoute", ns, name⟩
  { start with tracker :=
      (((start.tracker.putRoute m (route "store" "checkout") (.ofSpec "store" checkout)).putRoute m
        (route "store" "legacy") (.ofSpec "store" legacy)).putRoute m
        (route "ads" "campaign") (.ofSpec "ads" campaign)).dropRoute m (route "store" "legacy") }

theorem run_routed : ∃ ps, Session.Run reporter routes ps routed :=
  ⟨_, .step (.step (.step (.step (.start "h" ⟨"h", none⟩ 100) now
    (.event (routeEvent "store" "checkout" checkout)) rfl) now
    (.event (routeEvent "store" "legacy" legacy)) rfl) now
    (.event (routeEvent "ads" "campaign" campaign)) rfl) now
    (.event (.deleted .httpRoute "store" "legacy")) rfl⟩

theorem leads_edge : Leads routes (gatewayIn "ads" "edge") web :=
  ⟨"ads", "campaign", _, campaign, rfl,
    ⟨parent none "edge", by decide, by decide, by decide, rfl⟩,
    ⟨⟨some "core", some "Service", some "store", "web"⟩, by decide, by decide, by decide, rfl⟩⟩

theorem not_leads_legacy : ¬ Leads routes (gatewayIn "store" "legacy") web := by
  obtain ⟨ps, run⟩ := run_routed
  have none : ∀ r ∈ routed.tracker.routes.values, gatewayIn "store" "legacy" ∉ r.parents := by
    decide +kernel
  intro leads
  obtain ⟨r, known, -, parent⟩ := Target.mem_gatewaysOf.1 (run.reflects.mem_gatewaysOf_iff.2 leads)
  exact none r known parent

theorem ancestors_web : ∃ ps, Session.Run reporter routes ps routed ∧
    gatewayIn "ads" "edge" ∈ web.ancestors routed.tracker.routes.values ∧
    gatewayIn "store" "legacy" ∉ web.ancestors routed.tracker.routes.values ∧
    (web.ancestors routed.tracker.routes.values).Pairwise Target.Precedes := by
  obtain ⟨ps, run⟩ := run_routed
  obtain ⟨-, service, ordered, -⟩ := Session.Run.ancestors_exactly run web
  have exactly := (service ⟨rfl, rfl⟩).2 ⟨_, leads_edge⟩
  exact ⟨ps, run, (exactly _).2 leads_edge, fun h => not_leads_legacy ((exactly _).1 h), ordered⟩

end Sample
end PolicyAttachment
