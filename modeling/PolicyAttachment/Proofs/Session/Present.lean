import PolicyAttachment.Proofs.Session.Run

/-!
# The objects that are present

What is present follows from the events alone: of each object, what the last event about it says.
After any run the tracker knows the present objects and no others, and the state of every policy
shows the outcomes on its targets as they follow from these.
-/

namespace PolicyAttachment
set_option autoImplicit false

namespace WatchedObject

def kind : WatchedObject → WatchedKind
  | service _ => .service
  | gateway _ => .gateway
  | httpRoute _ _ => .httpRoute
  | policy p => .policy p.kind

/-- The facts about an object in the namespace `ns`, if it is a policy. -/
def facts? (ns : String) : WatchedObject → Option PolicyFacts
  | policy p => some (p.facts ns)
  | _ => none

/-- What an object in the namespace `ns` connects, if it is a route. -/
def links? (ns : String) : WatchedObject → Option RouteLinks
  | httpRoute _ spec => some (.ofSpec ns spec)
  | _ => none

end WatchedObject

/-- The target that an object of the kind is. -/
def WatchedKind.target? (ns name : String) : WatchedKind → Option Target
  | service => some ⟨"", "Service", ns, name⟩
  | gateway => some ⟨gatewayGroup, "Gateway", ns, name⟩
  | httpRoute => some ⟨gatewayGroup, "HTTPRoute", ns, name⟩
  | policy _ => none

namespace Event

/-- The kind, namespace and name of the object that an event is about. -/
def place? : Event → Option (WatchedKind × String × String)
  | applied object =>
    match object.metadata.ns, object.metadata.name with
    | some ns, some name => some (object.kind, ns, name)
    | _, _ => none
  | deleted kind ns name => some (kind, ns, name)

/-- The object as the event leaves it. -/
def object? : Event → Option WatchedObject
  | applied object => some object
  | deleted _ _ _ => none

end Event

/-- The object of that kind, namespace and name that is present after some events. -/
def present (es : List Event) (kind : WatchedKind) (ns name : String) : Option WatchedObject :=
  es.foldl (fun known e => if e.place? = some (kind, ns, name) then e.object? else known) none

/-- An event says what is present in its place and leaves every other place. -/
theorem present_snoc (es : List Event) (e : Event) (kind : WatchedKind) (ns name : String) :
    present (es ++ [e]) kind ns name =
      if e.place? = some (kind, ns, name) then e.object? else present es kind ns name := by
  rw [present, List.foldl_append]
  rfl

/-- A target tells which object it is. -/
theorem WatchedKind.target?_inj {kind kind' : WatchedKind} {ns ns' name name' : String}
    {target : Target} (h : kind.target? ns name = some target)
    (h' : kind'.target? ns' name' = some target) : kind = kind' ∧ ns = ns' ∧ name = name' := by
  have groups : gatewayGroup ≠ "" := by decide
  cases kind <;> cases kind' <;> cases h <;> simp_all [WatchedKind.target?]

namespace Tracker

/-- The tracker knows the objects that are present after `es`, and no others. -/
structure Reflects (es : List Event) (tr : Tracker) : Prop where
  policies : ∀ kind ns name, tr.facts.get? ⟨kind, ⟨ns, name⟩⟩ =
    (present es (.policy kind) ns name).bind (WatchedObject.facts? ns)
  targets : ∀ (kind : WatchedKind) ns name target, kind.target? ns name = some target →
    tr.targets.contains target = (present es kind ns name).isSome
  noOtherTargets : ∀ target, (∀ (kind : WatchedKind) ns name, kind.target? ns name ≠ some target) →
    tr.targets.contains target = false
  routes : ∀ ns name route, WatchedKind.httpRoute.target? ns name = some route →
    tr.routes.get? route = (present es .httpRoute ns name).bind (WatchedObject.links? ns)
  noOtherRoutes : ∀ route, (∀ ns name, WatchedKind.httpRoute.target? ns name ≠ some route) →
    tr.routes.get? route = none

variable {es : List Event} {tr tr' : Tracker} {m : Moment}

theorem reflects_empty (reporter : Reporter) (capacity : Nat) :
    Reflects [] (.empty reporter capacity) :=
  ⟨fun _ _ _ => rfl, fun _ _ _ _ _ => rfl, fun _ _ => rfl, fun _ _ _ _ => rfl, fun _ _ => rfl⟩

/-- What is computed does not matter to what is known of objects. -/
theorem Reflects.sameObjects (h : Reflects es tr) (same : SameObjects tr tr') : Reflects es tr' where
  policies := by
    rw [same.facts]
    exact h.policies
  targets := by
    rw [same.targets]
    exact h.targets
  noOtherTargets := by
    rw [same.targets]
    exact h.noOtherTargets
  routes := by
    rw [same.routes]
    exact h.routes
  noOtherRoutes := by
    rw [same.routes]
    exact h.noOtherRoutes

/-- An event that is about no object changes nothing. -/
theorem Reflects.snoc_of_place? (h : Reflects es tr) {e : Event} (he : e.place? = none) :
    Reflects (es ++ [e]) tr := by
  have same : ∀ kind ns name, present (es ++ [e]) kind ns name = present es kind ns name := by
    intro kind ns name
    rw [present_snoc, he, if_neg (by simp)]
  refine ⟨?_, ?_, h.noOtherTargets, ?_, h.noOtherRoutes⟩
  · simpa only [same] using h.policies
  · simpa only [same] using h.targets
  · simpa only [same] using h.routes

/-- An event about one object changes what is known of this object, and of no other. -/
theorem Reflects.snoc (h : Reflects es tr) {e : Event} {kind : WatchedKind} {ns name : String}
    (he : e.place? = some (kind, ns, name))
    (hfacts : ∀ k ns' name', tr'.facts.get? ⟨k, ⟨ns', name'⟩⟩ =
      if (kind, ns, name) = (.policy k, ns', name') then e.object?.bind (WatchedObject.facts? ns')
      else tr.facts.get? ⟨k, ⟨ns', name'⟩⟩)
    (htargets : ∀ target, tr'.targets.contains target =
      if kind.target? ns name = some target then e.object?.isSome else tr.targets.contains target)
    (hroutes : ∀ route, tr'.routes.get? route =
      if kind = .httpRoute ∧ kind.target? ns name = some route then
        e.object?.bind (WatchedObject.links? ns)
      else tr.routes.get? route) :
    Reflects (es ++ [e]) tr' where
  policies k ns' name' := by
    rw [hfacts, present_snoc, he, h.policies]
    by_cases same : (kind, ns, name) = (.policy k, ns', name')
    · rw [if_pos same, if_pos (congrArg some same)]
    · rw [if_neg same, if_neg fun heq => same (Option.some.inj heq)]
  targets k ns' name' target ht := by
    rw [htargets, present_snoc, he]
    by_cases same : kind.target? ns name = some target
    · obtain ⟨rfl, rfl, rfl⟩ := WatchedKind.target?_inj same ht
      rw [if_pos same, if_pos rfl]
    · rw [if_neg same, if_neg, h.targets k ns' name' target ht]
      intro heq
      cases heq
      exact same ht
  noOtherTargets target none := by
    rw [htargets, if_neg (none kind ns name), h.noOtherTargets target none]
  routes ns' name' route hr := by
    rw [hroutes, present_snoc, he]
    by_cases same : kind = .httpRoute ∧ kind.target? ns name = some route
    · obtain ⟨rfl, rfl, rfl⟩ := WatchedKind.target?_inj same.2 hr
      rw [if_pos same, if_pos rfl]
    · rw [if_neg same, if_neg, h.routes ns' name' route hr]
      intro heq
      cases heq
      exact same ⟨rfl, hr⟩
  noOtherRoutes route none := by
    rw [hroutes, if_neg, h.noOtherRoutes route none]
    rintro ⟨rfl, hr⟩
    exact none ns name hr

theorem contains_insert (targets : Table Target Unit) (target other : Target) :
    (targets.insert target ()).contains other =
      if other = target then true else targets.contains other := by
  rw [Table.contains, Table.get?_insert]
  split <;> rfl

theorem contains_erase (targets : Table Target Unit) (target other : Target) :
    (targets.erase target).contains other =
      if other = target then false else targets.contains other := by
  rw [Table.contains, Table.get?_erase]
  split <;> rfl

/-- A target that comes is known from then on. -/
theorem Reflects.putTarget (h : Reflects es tr) {object : WatchedObject} {ns name : String}
    {target : Target} (hplace : (Event.applied object).place? = some (object.kind, ns, name))
    (htarget : object.kind.target? ns name = some target) (hkind : object.kind ≠ .httpRoute) :
    Reflects (es ++ [.applied object]) (tr.putTarget m target) := by
  have same := sameObjects_putTarget m tr target
  apply h.snoc hplace
  · intro k ns' name'
    rw [same.facts, if_neg]
    · rfl
    · intro heq
      rw [(Prod.mk.inj heq).1] at htarget
      cases htarget
  · intro other
    rw [same.targets, contains_insert]
    simp only [htarget, Option.some.injEq, eq_comm, Event.object?, Option.isSome_some]
  · intro route
    rw [same.routes, if_neg fun hr => hkind hr.1]

theorem Reflects.dropTarget (h : Reflects es tr) {kind : WatchedKind} {ns name : String}
    {target : Target} (htarget : kind.target? ns name = some target) (hkind : kind ≠ .httpRoute) :
    Reflects (es ++ [.deleted kind ns name]) (tr.dropTarget m target) := by
  have same := sameObjects_dropTarget m tr target
  apply h.snoc rfl
  · intro k ns' name'
    rw [same.facts, if_neg]
    · rfl
    · intro heq
      rw [(Prod.mk.inj heq).1] at htarget
      cases htarget
  · intro other
    rw [same.targets, contains_erase]
    simp only [htarget, Option.some.injEq, eq_comm, Event.object?, Option.isSome_none]
  · intro route
    rw [same.routes, if_neg fun hr => hkind hr.1]

theorem Reflects.putRoute (h : Reflects es tr) {metadata : Metadata} {spec : RouteSpec}
    {ns name : String} (hplace : (Event.applied (.httpRoute metadata spec)).place? =
      some (.httpRoute, ns, name)) :
    Reflects (es ++ [.applied (.httpRoute metadata spec)])
      (tr.putRoute m ⟨gatewayGroup, "HTTPRoute", ns, name⟩ (.ofSpec ns spec)) := by
  have same := sameObjects_putRoute m tr ⟨gatewayGroup, "HTTPRoute", ns, name⟩ (.ofSpec ns spec)
  apply h.snoc hplace
  · intro k ns' name'
    rw [same.facts, if_neg (by simp)]
    rfl
  · intro other
    rw [same.targets, contains_insert]
    simp only [WatchedKind.target?, Option.some.injEq, eq_comm, Event.object?, Option.isSome_some]
  · intro route
    rw [same.routes, Table.get?_insert]
    simp only [WatchedKind.target?, Option.some.injEq, true_and, eq_comm]
    rfl

theorem Reflects.dropRoute (h : Reflects es tr) (ns name : String) :
    Reflects (es ++ [.deleted .httpRoute ns name])
      (tr.dropRoute m ⟨gatewayGroup, "HTTPRoute", ns, name⟩) := by
  have same := sameObjects_dropRoute m tr ⟨gatewayGroup, "HTTPRoute", ns, name⟩
  apply h.snoc rfl
  · intro k ns' name'
    rw [same.facts, if_neg (by simp)]
    rfl
  · intro other
    rw [same.targets, contains_erase]
    simp only [WatchedKind.target?, Option.some.injEq, eq_comm, Event.object?, Option.isSome_none]
  · intro route
    rw [same.routes, Table.get?_erase]
    simp only [WatchedKind.target?, Option.some.injEq, true_and, eq_comm]
    rfl

/-- The facts about a policy are those of the object that comes. -/
theorem Reflects.putPolicy (h : Reflects es tr) {p : Policy} {ns name : String}
    (hplace : (Event.applied (.policy p)).place? = some (.policy p.kind, ns, name)) :
    Reflects (es ++ [.applied (.policy p)]) (tr.putPolicy m ⟨p.kind, ⟨ns, name⟩⟩ (p.facts ns)) := by
  have same := sameObjects_putPolicy m tr ⟨p.kind, ⟨ns, name⟩⟩ (p.facts ns)
  apply h.snoc hplace
  · intro k ns' name'
    rw [get?_facts_putPolicy]
    by_cases heq : (WatchedKind.policy p.kind, ns, name) = (.policy k, ns', name')
    · rw [if_pos heq]
      cases heq
      rw [if_pos rfl]
      rfl
    · rw [if_neg heq, if_neg]
      intro hkey
      cases hkey
      exact heq rfl
  · intro other
    rw [same.targets, if_neg (by simp [WatchedKind.target?])]
  · intro route
    rw [same.routes, if_neg (by simp)]

theorem Reflects.dropPolicy (h : Reflects es tr) (kind : PolicyKind) (ns name : String) :
    Reflects (es ++ [.deleted (.policy kind) ns name]) (tr.dropPolicy m ⟨kind, ⟨ns, name⟩⟩) := by
  obtain ⟨targets, routes, -⟩ := sameObjects_dropPolicy m tr ⟨kind, ⟨ns, name⟩⟩
  apply h.snoc rfl
  · intro k ns' name'
    rw [get?_facts_dropPolicy]
    by_cases heq : (WatchedKind.policy kind, ns, name) = (.policy k, ns', name')
    · rw [if_pos heq]
      cases heq
      rw [if_pos rfl]
      rfl
    · rw [if_neg heq, if_neg]
      intro hkey
      cases hkey
      exact heq rfl
  · intro other
    rw [targets, if_neg (by simp [WatchedKind.target?])]
  · intro route
    rw [routes, if_neg (by simp)]

/-- What is known after an event is what is present after it. -/
theorem Reflects.handle (h : Reflects es tr) {e : Event} (he : tr.handle m e = .ok tr') :
    Reflects (es ++ [e]) tr' := by
  cases e with
  | applied object =>
    obtain ⟨hns, rfl⟩ | ⟨ns, name, hns, hname, rfl⟩ := Tracker.handle_applied he
    · exact h.snoc_of_place? (by simp [Event.place?, hns])
    · have hplace : (Event.applied object).place? = some (object.kind, ns, name) := by
        simp [Event.place?, hns, hname]
      cases object with
      | service metadata => exact h.putTarget hplace rfl (by simp [WatchedObject.kind])
      | gateway metadata => exact h.putTarget hplace rfl (by simp [WatchedObject.kind])
      | httpRoute metadata spec => exact h.putRoute hplace
      | policy p => exact h.putPolicy hplace
  | deleted kind ns name =>
    cases he
    cases kind with
    | service => exact h.dropTarget rfl (by simp)
    | gateway => exact h.dropTarget rfl (by simp)
    | httpRoute => exact h.dropRoute ns name
    | policy kind => exact h.dropPolicy kind ns name

end Tracker

namespace Session

open Tracker (Reflects SameObjects Shown)

variable {reporter : Reporter} {es : List Event} {ps : List Pass} {s s' : Session} {now : Instant}

/-- An occurrence other than an event is about no object. -/
theorem reflects_step (h : Reflects es s.tracker) {o : Occurrence} (hstep : s.step now o = .ok s') :
    Reflects (es ++ o.events) s'.tracker := by
  rcases step_cases hstep with ⟨e, rfl, handled⟩ | ⟨noEvent, -, leaseChanged, after⟩ |
    ⟨noEvent, -, after | after⟩
  · exact h.handle handled
  · rw [noEvent, List.append_nil, after]
    exact h.sameObjects (Tracker.sameObjects_fullPass _ _ _)
  · rw [noEvent, List.append_nil, after]
    exact h
  · rw [noEvent, List.append_nil, after]
    exact h.sameObjects ⟨rfl, rfl, rfl, rfl⟩

/-- In every run an instance knows the objects that are present. -/
theorem Run.reflects (run : Run reporter es ps s) : Reflects es s.tracker := by
  induction run with
  | start hostname claim capacity => exact Tracker.reflects_empty reporter capacity
  | step run now o h ih => exact reflects_step ih h
  | taken run n ih => exact ih.sameObjects ⟨rfl, rfl, rfl, rfl⟩

/-- Every policy that is known has its last pass, which showed what had to be shown. -/
theorem Run.shown (run : Run reporter es ps s) {ref : PolicyKey} {r : PolicyRecord}
    (hr : s.tracker.policies.get? ref = some r) : Shown s.tracker ref r := by
  obtain ⟨capacity, turn⟩ := run.turn
  have before := (turn.sound (sound_empty reporter capacity)).2
  have agree := (turn.kept ref.kind).resolve_left id
  obtain ⟨r', hr', same⟩ := agree.get?_symm hr rfl
  cases hp : Pass.last? ref.kind ps with
  | none =>
    rw [Pass.leftBy, hp] at hr'
    cases hr'
  | some p =>
    rw [Pass.leftBy_of_last? hp] at hr' agree
    exact agree.shown hr' same
      (p.passed_after.shown (before p (Pass.mem_of_last? hp)) hr' (Pass.kind_of_last? hp).symm)

end Session
end PolicyAttachment
