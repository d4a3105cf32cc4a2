import PolicyAttachment.Proofs.Session.Log
import PolicyAttachment.Proofs.Spec.Checks
import PolicyAttachment.Proofs.Tracker.Reorder

/-!
# The spelling of targets

A condition is shown on a target whose kind reads as that of a Service or a Gateway in any case of its
letters, and it is sent under the kind as the target spells it. But every way to a target spells these
kinds as their watches do: references from policies are put right, and the parents of routes are spelled
out. What the tracker knows is `Spelled` throughout, and so is whatever it enqueues:
`Session.Logged.spelled`.
-/

namespace PolicyAttachment
set_option autoImplicit false

namespace Target

/-- If the kind can be read as that of a Service or a Gateway, then it is spelled like that. -/
def IsSpelled (t : Target) : Prop :=
  ∀ g ∈ [GroupKind.service, GroupKind.gateway], g.covers t.group t.kind = true → t.kind = g.kind

/-- An ancestor of a target is the target itself or the parent of a route. -/
theorem mem_ancestors {routes : List RouteLinks} {t a : Target} (h : a ∈ t.ancestors routes) :
    a = t ∨ ∃ r ∈ routes, a ∈ r.parents := by
  unfold ancestors at h
  split at h
  · split at h
    · exact .inl (List.mem_singleton.1 h)
    · obtain ⟨r, hr, -, ha⟩ := mem_gatewaysOf.1 h
      exact .inr ⟨r, hr, ha⟩
  · exact .inl (List.mem_singleton.1 h)

end Target

/-- No two watched kinds of a group differ in the case of their letters alone. -/
theorem GroupKind.kind_eq_of_covers {g g' : GroupKind} (hg : g ∈ watched) (hg' : g' ∈ watched)
    (group : g'.group = g.group) (h : g.covers g.group g'.kind = true) : g'.kind = g.kind := by
  have apart : ∀ g ∈ watched, ∀ g' ∈ watched, g'.group = g.group →
      g.covers g.group g'.kind = true → g'.kind = g.kind := by
    decide +kernel
  exact apart g hg g' hg' group h

/-- A reference is spelled properly as soon as it has become a target. -/
theorem TargetRef.isSpelled_target (ref : TargetRef) (ownNs : String) :
    (ref.target ownNs).IsSpelled := by
  intro g hg covers
  have watched : g ∈ GroupKind.watched := by
    rcases List.mem_cons.1 hg with rfl | hg
    · decide
    · obtain rfl := List.mem_singleton.1 hg
      decide
  simp only [target] at covers ⊢
  generalize GroupKind.normalGroup ref.group = group at covers ⊢
  unfold GroupKind.properKind at covers ⊢
  cases found : GroupKind.watched.find? fun g => g.covers group ref.kind with
  | some g' =>
    rw [found] at covers
    obtain ⟨rfl, same⟩ := GroupKind.covers_iff.1 covers
    have spelled := List.find?_some found
    exact GroupKind.kind_eq_of_covers watched (List.mem_of_find?_eq_some found)
      (GroupKind.covers_iff.1 spelled).1 (GroupKind.covers_iff.2 ⟨rfl, same⟩)
  | none =>
    rw [found] at covers
    exact absurd covers (List.find?_eq_none.1 found g watched)

theorem Policy.isSpelled_of_mem_targets {p : Policy} {ns : String} {t : Target}
    (h : t ∈ p.targets ns) : t.IsSpelled := by
  rw [targets, List.mem_eraseDups, List.mem_map] at h
  obtain ⟨ref, -, rfl⟩ := h
  exact ref.isSpelled_target ns

/-- A target that can carry a condition and is spelled as its watch does is a Service or a Gateway. -/
theorem Target.kind_of_apiVersion? {t : Target} {apiVersion : String}
    (h : t.apiVersion? = some apiVersion) (spelled : t.IsSpelled) :
    (t.group = "" ∧ t.kind = "Service" ∧ apiVersion = "v1") ∨
      (t.group = gatewayGroup ∧ t.kind = "Gateway" ∧ apiVersion = WatchedKind.gatewayApiVersion) := by
  unfold Target.apiVersion? at h
  split at h
  · rename_i covers
    cases h
    have group : GroupKind.service.group = t.group := (GroupKind.covers_iff.1 covers).1
    exact .inl ⟨group.symm, spelled _ List.mem_cons_self covers, rfl⟩
  · split at h
    · rename_i covers
      cases h
      have group : GroupKind.gateway.group = t.group := (GroupKind.covers_iff.1 covers).1
      exact .inr ⟨group.symm, spelled _ (List.mem_cons_of_mem _ List.mem_cons_self) covers, rfl⟩
    · cases h

/-- The parents of a route are Gateways. -/
theorem RouteLinks.isSpelled_of_mem_parents {spec : RouteSpec} {ns : String} {t : Target}
    (h : t ∈ (ofSpec ns spec).parents) : t.IsSpelled := by
  obtain ⟨parent, -, hp⟩ := List.mem_filterMap.1 h
  unfold ParentReference.gateway? at hp
  split at hp
  · cases hp
    intro g hg covers
    rcases List.mem_cons.1 hg with rfl | hg
    · have groups : ¬ GroupKind.service.group = gatewayGroup := by decide
      exact absurd (GroupKind.covers_iff.1 covers).1 groups
    · obtain rfl := List.mem_singleton.1 hg
      rfl
  · cases hp

/-- A condition goes to a target that can carry it, under its API version and proper spelling. -/
def StatusChange.IsSpelled : StatusChange → Prop
  | policy _ _ _ _ => True
  | ancestor apiVersion target _ => target.apiVersion? = some apiVersion ∧ target.IsSpelled

/-- A condition for a target that is spelled goes to the object under its own name. -/
theorem StatusChange.isSpelled_of_flag? {t : Target} {condition : Option Condition}
    {change : StatusChange} (ht : t.IsSpelled) (h : flag? t condition = some change) :
    change.IsSpelled := by
  obtain ⟨apiVersion, hv, rfl⟩ := Option.map_eq_some_iff.1 h
  exact ⟨hv, ht⟩

/-- What is blocked was an ancestor to record. -/
theorem Review.mem_of_mem_blocked {reporter : Reporter} {ref : PolicyKey} {generation : Option Int}
    {now : Instant} {es : List AncestryEntry} {r : Register} {blocked : List (Target × Condition)}
    {b : Target × Condition}
    (h : b ∈ (es.foldl (record reporter ref generation now) (r, blocked)).2) :
    b ∈ blocked ∨ ∃ e ∈ es, e.ancestor = b.1 := by
  induction es generalizing r blocked with
  | nil => exact .inl h
  | cons e es ih =>
    rw [List.foldl_cons, record_eq] at h
    have later : (∃ d ∈ es, d.ancestor = b.1) → ∃ d ∈ e :: es, d.ancestor = b.1 := by
      rintro ⟨d, hd, heq⟩
      exact ⟨d, List.mem_cons_of_mem e hd, heq⟩
    split at h
    · exact (ih h).imp_right later
    · rcases ih h with h | h
      · rcases List.mem_append.1 h with h | h
        · exact .inl h
        · obtain rfl := List.mem_singleton.1 h
          exact .inr ⟨e, List.mem_cons_self, rfl⟩
      · exact .inr (later h)

theorem Queue.mem_offer {q : Queue} {leads : Bool} {change other : StatusChange}
    (h : other ∈ (q.offer leads change).2.waiting) : other ∈ q.waiting ∨ other = change := by
  obtain ⟨new, sub, waiting⟩ := (q.takes_offer leads change).taken
  rw [waiting, List.mem_append] at h
  exact h.imp_right fun h => List.mem_singleton.1 (sub.subset h)

/-- The parents of these routes are spelled as their watch does. -/
def SpelledRoutes (routes : Table Target RouteLinks) : Prop :=
  ∀ route links, routes.get? route = some links → ∀ t ∈ links.parents, t.IsSpelled

/-- Other routes are spelled. -/
def Stage.Spells : Stage → Prop
  | place _ routes => SpelledRoutes routes
  | pass _ _ => True
  | sync _ => True

namespace Tracker

/-- Everything that can become the target of a condition is spelled as its watch does. -/
structure Spelled (tr : Tracker) : Prop where
  targets : ∀ ref r, tr.policies.get? ref = some r → ∀ t ∈ r.facts.targets, t.IsSpelled
  routes : SpelledRoutes tr.routes
  marked : ∀ t ref, (tr.markOf? t ref).isSome → t.IsSpelled
  flagged : ∀ t, (tr.flagged.get? t).isSome → t.IsSpelled
  waiting : ∀ change ∈ tr.queue.waiting, change.IsSpelled

variable {tr : Tracker} {m : Moment} {leads : Bool} {t : Target}

theorem spelled_empty (reporter : Reporter) (capacity : Nat) : (empty reporter capacity).Spelled where
  targets _ _ h := nomatch h
  routes _ _ h := nomatch h
  marked _ _ h := nomatch h
  flagged _ h := nomatch h
  waiting _ h := nomatch h

/-- Offering a change for a target, whatever comes to be flagged but for that target. -/
theorem Spelled.offer (h : tr.Spelled) (leads : Bool) (ht : t.IsSpelled)
    {condition : Option Condition} {change : StatusChange}
    (hc : StatusChange.flag? t condition = some change) {flagged : Table Target String}
    (same : ∀ other, other ≠ t → flagged.get? other = tr.flagged.get? other) :
    ({ tr with queue := (tr.queue.offer leads change).2 } : Tracker).Spelled ∧
      ({ tr with queue := (tr.queue.offer leads change).2, flagged } : Tracker).Spelled := by
  have waiting : ∀ other ∈ (tr.queue.offer leads change).2.waiting, other.IsSpelled := by
    intro other ho
    rcases Queue.mem_offer ho with ho | rfl
    · exact h.waiting other ho
    · exact StatusChange.isSpelled_of_flag? ht hc
  refine ⟨⟨h.targets, h.routes, h.marked, h.flagged, waiting⟩,
    ⟨h.targets, h.routes, h.marked, ?_, waiting⟩⟩
  intro other shown
  by_cases heq : other = t
  · exact heq ▸ ht
  · exact h.flagged other (same other heq ▸ shown)

theorem Spelled.flag (h : tr.Spelled) (ht : t.IsSpelled) (force : Bool) (c : Condition) :
    (Tracker.flag leads force tr (t, c)).Spelled := by
  simp only [Tracker.flag]
  split
  · exact h
  · cases hc : StatusChange.flag? t (some c) with
    | none => exact h
    | some change =>
      have same : ∀ other, other ≠ t →
          (tr.flagged.insert t c.message).get? other = tr.flagged.get? other :=
        fun other ho => by rw [Table.get?_insert, if_neg ho]
      have offered := h.offer leads ht hc same
      simp only
      split
      · exact offered.2
      · exact offered.1

theorem Spelled.unflag (h : tr.Spelled) (ht : t.IsSpelled) : (Tracker.unflag leads tr t).Spelled := by
  have same : ∀ other, other ≠ t → (tr.flagged.erase t).get? other = tr.flagged.get? other :=
    fun other ho => by rw [Table.get?_erase, if_neg ho]
  simp only [Tracker.unflag]
  cases hc : StatusChange.flag? t none with
  | none =>
    refine ⟨h.targets, h.routes, h.marked, ?_, h.waiting⟩
    intro other shown
    by_cases heq : other = t
    · exact heq ▸ ht
    · exact h.flagged other (same other heq ▸ shown)
  | some change =>
    have offered := h.offer leads ht hc same
    simp only
    split
    · exact offered.2
    · exact offered.1

/-- The conditions go to marked targets, and what is cleared was flagged before. -/
theorem Spelled.syncFlags (h : tr.Spelled) (m : Moment) (force : Bool) :
    (tr.syncFlags m force).Spelled := by
  have desired : ∀ d ∈ tr.desired, d.1.IsSpelled := by
    rintro ⟨t, c⟩ hd
    obtain ⟨ms, hms, first⟩ := Option.bind_eq_some_iff.1 (mem_desired_iff.1 hd)
    obtain ⟨ref, marked, -⟩ := Marks.first?_eq_some_iff.1 first
    apply h.marked t ref
    rw [markOf?, markIn?, hms, Option.bind_some, marked]
    rfl
  have shown : (tr.desired.foldl (Tracker.flag m.leads force) tr).Spelled :=
    List.foldlRecOn tr.desired _ h fun _ before d hd => before.flag (desired d hd) force d.2
  rw [syncFlags_eq]
  generalize tr.desired.foldl (Tracker.flag m.leads force) tr = mid at shown
  refine List.foldlRecOn (motive := Tracker.Spelled) _ _ shown fun _ before t ht => ?_
  exact before.unflag (shown.flagged t (Table.mem_keys_iff.1 (List.mem_filter.1 ht).1))

/-- Only an ancestor of a target is left out of a status. -/
theorem Spelled.blocked (h : tr.Spelled) {now : Instant} {ref : PolicyKey} {r : PolicyRecord}
    (hr : tr.policies.get? ref = some r) (ht : t ∈ (tr.review now ref r).blocked.map Prod.fst) :
    t.IsSpelled := by
  obtain ⟨b, hb, rfl⟩ := List.mem_map.1 ht
  cases hk : ref.kind.reportsByAncestor with
  | false =>
    rw [(review_of_not_reportsByAncestor hk).2] at hb
    nomatch hb
  | true =>
    simp only [review, hk, if_true, Review.recordAll] at hb
    rcases Review.mem_of_mem_blocked hb with hb | ⟨e, he, heq⟩
    · nomatch hb
    · obtain ⟨attached, below⟩ := AncestryEntry.mem_of_mem_ofAttachments he
      obtain ⟨target, htarget, same⟩ := List.mem_map.1 attached
      obtain rfl : target = e.target := congrArg Prod.fst same
      rw [← heq]
      rcases Target.mem_ancestors below with heq | ⟨links, hlinks, hp⟩
      · rw [heq]
        exact h.targets ref r hr e.target htarget
      · obtain ⟨⟨route, links⟩, hm, rfl⟩ := List.mem_map.1 hlinks
        exact h.routes route links (Table.mem_entries_iff.1 hm) e.ancestor hp

/-- A pass marks ancestors of targets and of routes, which are spelled. -/
theorem Spelled.passOver (h : tr.Spelled) (m : Moment) (retry : Bool) (kind : PolicyKind) :
    (tr.passOver m retry kind).Spelled := by
  have passed := passed_passOver m retry tr kind
  refine ⟨?_, ?_, ?_, ?_, ?_⟩
  · intro ref r' hr'
    obtain ⟨r, hr⟩ := passed.exists_before hr'
    have facts : (tr.passOver m retry kind).facts.get? ref = tr.facts.get? ref := by
      rw [(sameObjects_passOver m retry tr kind).facts]
    rw [get?_facts, get?_facts, hr, hr', Option.map_some, Option.map_some, Option.some.injEq] at facts
    rw [facts]
    exact h.targets ref r hr
  · rw [passed.routes]
    exact h.routes
  · intro t ref marked
    by_cases hk : ref.kind = kind
    · obtain ⟨r, hr, blocked⟩ := (passed.marked t ref hk).1 marked
      exact h.blocked hr blocked
    · rw [passed.unmarked t ref hk] at marked
      exact h.marked t ref marked
  · intro t shown
    have flagged : (tr.passOver m retry kind).flagged.get? t = tr.flagged.get? t :=
      (relays_flag_passOver m retry tr kind t).memory_of_nil
    exact h.flagged t (flagged ▸ shown)
  · intro change hc
    obtain ⟨due, takes, -⟩ := passed.queue
    obtain ⟨new, sub, waiting⟩ := takes.taken
    rw [waiting, List.mem_append] at hc
    rcases hc with hc | hc
    · exact h.waiting change hc
    · obtain ⟨d, -, rfl⟩ := List.mem_map.1 (sub.subset hc)
      trivial

/-- Stages that spell routes keep everything spelled. -/
theorem Spelled.runAll (h : tr.Spelled) {stages : List Stage} (spells : ∀ a ∈ stages, a.Spells) :
    (Stage.runAll m tr stages).Spelled := by
  refine List.foldlRecOn (motive := Tracker.Spelled) _ _ h fun tr before a ha => ?_
  cases a with
  | place targets routes =>
    exact ⟨before.targets, spells _ ha, before.marked, before.flagged, before.waiting⟩
  | pass retry kind => exact before.passOver m retry kind
  | sync force => exact before.syncFlags m force

section Stages

theorem spells_passOver (kinds : List PolicyKind) : ∀ a ∈ Stage.passOver kinds, a.Spells := by
  intro a ha
  unfold Stage.passOver at ha
  split at ha
  · nomatch ha
  · rcases List.mem_append.1 ha with ha | ha
    · obtain ⟨kind, -, rfl⟩ := List.mem_map.1 ha
      trivial
    · obtain rfl := List.mem_singleton.1 ha
      trivial

theorem spells_full (leaseChanged : Bool) : ∀ a ∈ Stage.full leaseChanged, a.Spells := by
  intro a ha
  rcases List.mem_append.1 ha with ha | ha
  · obtain ⟨kind, -, rfl⟩ := List.mem_map.1 ha
    trivial
  · obtain rfl := List.mem_singleton.1 ha
    trivial

theorem spells_putTargetStages (h : SpelledRoutes tr.routes) (target : Target) :
    ∀ a ∈ tr.putTargetStages target, a.Spells := by
  unfold putTargetStages
  split
  · exact List.forall_mem_nil _
  · exact List.forall_mem_cons.2 ⟨h, spells_passOver _⟩

theorem spells_dropTargetStages (h : SpelledRoutes tr.routes) (target : Target) :
    ∀ a ∈ tr.dropTargetStages target, a.Spells := by
  unfold dropTargetStages
  split
  · exact List.forall_mem_cons.2 ⟨h, spells_passOver _⟩
  · exact List.forall_mem_nil _

theorem spells_afterRoute (changed : Bool) (tr : Tracker) :
    ∀ a ∈ if changed then tr.routeStages else [], a.Spells := by
  split
  · exact spells_passOver _
  · exact List.forall_mem_nil _

/-- The one stage that adds a route adds its parents as they are watched. -/
theorem spells_putRouteStages (h : SpelledRoutes tr.routes) (route : Target) (ns : String)
    (spec : RouteSpec) : ∀ a ∈ tr.putRouteStages m route (.ofSpec ns spec), a.Spells := by
  have routes : SpelledRoutes (tr.routes.insert route (.ofSpec ns spec)) := by
    intro other links hl
    rw [Table.get?_insert] at hl
    split at hl
    · cases hl
      exact fun t ht => RouteLinks.isSpelled_of_mem_parents ht
    · exact h other links hl
  rw [putRouteStages, List.forall_mem_append, List.forall_mem_cons]
  exact ⟨⟨routes, spells_putTargetStages routes route⟩, spells_afterRoute _ _⟩

theorem spells_dropRouteStages (h : SpelledRoutes tr.routes) (route : Target) :
    ∀ a ∈ tr.dropRouteStages m route, a.Spells := by
  have routes : SpelledRoutes (tr.routes.erase route) := by
    intro other links hl
    rw [Table.get?_erase] at hl
    split at hl
    · cases hl
    · exact h other links hl
  rw [dropRouteStages, List.forall_mem_append, List.forall_mem_cons]
  exact ⟨⟨routes, spells_dropTargetStages routes route⟩, spells_afterRoute _ _⟩

/-- Whatever an event leads to spells routes. -/
theorem spells_stages (h : SpelledRoutes tr.routes) (e : Event) :
    ∀ a ∈ tr.stages m e, a.Spells := by
  cases e with
  | applied object =>
    simp only [stages]
    split
    · cases object with
      | service metadata => exact spells_putTargetStages h _
      | gateway metadata => exact spells_putTargetStages h _
      | httpRoute metadata spec => exact spells_putRouteStages h _ _ spec
      | policy p =>
        simp only [putObjectStages, putPolicyStages]
        split
        · exact spells_passOver _
        · exact List.forall_mem_nil _
    · exact List.forall_mem_nil _
  | deleted kind ns name =>
    cases kind with
    | service => exact spells_dropTargetStages h _
    | gateway => exact spells_dropTargetStages h _
    | httpRoute => exact spells_dropRouteStages h _
    | policy kind =>
      simp only [stages, dropObjectStages, dropPolicyStages]
      split
      · exact spells_passOver _
      · exact List.forall_mem_nil _

end Stages

/-- The targets of a policy that comes are spelled. -/
theorem Spelled.entered (h : tr.Spelled) (e : Event) : (tr.entered e).Spelled := by
  have targets : ∀ ref r, (tr.entered e).policies.get? ref = some r →
      ∀ t ∈ r.facts.targets, t.IsSpelled := by
    intro ref r hr
    rcases record_of_entered hr with hr | ⟨p, ns, rfl⟩
    · exact h.targets ref r hr
    · rw [facts_sighting]
      exact fun t ht => Policy.isSpelled_of_mem_targets ht
  rw [tr.entered_eq e] at targets ⊢
  exact ⟨targets, h.routes, h.marked, h.flagged, h.waiting⟩

/-- What waits after the stages is spelled, in whatever queue they end. -/
theorem Spelled.withWaiting (h : tr.Spelled) {queue : Queue}
    (sub : ∀ change ∈ queue.waiting, change ∈ tr.queue.waiting) :
    ({ tr with queue } : Tracker).Spelled :=
  ⟨h.targets, h.routes, h.marked, h.flagged, fun change hc => h.waiting change (sub change hc)⟩

end Tracker

namespace Session

variable {reporter : Reporter} {log : List Note} {s s' : Session} {now : Instant} {o : Occurrence}

theorem spells_fullStages (s : Session) (now : Instant) (leaseChanged : Bool) :
    ∀ a ∈ if s.followsClaims then s.fullStages now leaseChanged else [], a.Spells := by
  unfold fullStages
  split
  · split
    · exact Tracker.spells_full leaseChanged
    · exact List.forall_mem_nil _
  · exact List.forall_mem_nil _

/-- One step keeps everything spelled. -/
theorem spelled_step (h : s.tracker.Spelled) (hs : s.step now o = .ok s') : s'.tracker.Spelled := by
  rw [tracker_step hs]
  cases o with
  | event e => exact (h.entered e).runAll (Tracker.spells_stages h.routes e)
  | tick => exact h.runAll (spells_fullStages s now false)
  | claimed claim => exact h.runAll (spells_fullStages { s with claim } now true)
  | claimsClosed => exact h
  | queueClosed => exact h.withWaiting fun change hc => nomatch hc
  | nothing => exact h

/-- In every run, everything that the tracker knows is spelled, and so is every change that was ever
enqueued. -/
theorem Logged.spelled (logged : Logged reporter log s) :
    s.tracker.Spelled ∧ ∀ change ∈ changesIn log, change.IsSpelled := by
  induction logged with
  | start hostname claim capacity =>
    exact ⟨Tracker.spelled_empty reporter capacity, fun change hc => nomatch hc⟩
  | @step log s s' logged now o h ih =>
    have next := spelled_step ih.1 h
    refine ⟨next, ?_⟩
    intro change hc
    rw [changesIn_append, changesIn_notes, List.mem_append] at hc
    exact hc.elim (ih.2 change) fun hc => next.waiting change (List.mem_of_mem_drop hc)
  | taken logged n ih =>
    exact ⟨ih.1.withWaiting fun change hc => List.mem_of_mem_drop hc, ih.2⟩

end Session
end PolicyAttachment
