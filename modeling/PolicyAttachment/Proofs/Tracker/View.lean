import PolicyAttachment.Proofs.Tracker.Again

/-!
# What does not depend on sending

Whether a change gets into the queue decides what is pending and what counts as shown on ancestors.
Everything else that a tracker holds is its view: two trackers with the same view have the same view
after the same event, whoever leads, whatever fits into their queues and whichever rule they have for
conditions that do not fit.
-/

namespace PolicyAttachment
set_option autoImplicit false

namespace Table

section Values

variable {κ ν μ ρ : Type}

/-- Tables that look alike through `e` do so through whatever depends on no more than `e`. -/
theorem mapValues_congr {e : κ → ν → μ} {f g : κ → ν → ρ} {t t' : Table κ ν}
    (h : t'.mapValues e = t.mapValues e)
    (depends : ∀ key value value', e key value' = e key value → f key value' = g key value) :
    t'.mapValues f = t.mapValues g := by
  apply ext_entries
  have entries := congrArg Table.entries h
  simp only [mapValues] at entries ⊢
  generalize t'.entries = l' at entries
  generalize t.entries = l at entries
  induction l generalizing l' with
  | nil => rw [List.map_eq_nil_iff.1 entries, List.map_nil, List.map_nil]
  | cons entry l ih =>
    obtain ⟨entry', l', rfl, first, rest⟩ := List.map_eq_cons_iff.1 entries
    obtain ⟨key, value⟩ := entry
    obtain ⟨key', value'⟩ := entry'
    obtain ⟨rfl, value_eq⟩ := Prod.mk.inj first
    rw [List.map_cons, List.map_cons, ih l' rest, depends key' value value' value_eq]

variable [DecidableEq κ]

theorem mapValues_insert (f : κ → ν → μ) (t : Table κ ν) (key : κ) (value : ν) :
    (t.insert key value).mapValues f = (t.mapValues f).insert key (f key value) := by
  have keys : (t.mapValues f).keys = t.keys := by simp [Table.keys, mapValues]
  apply ext_entries
  by_cases present : key ∈ t.keys
  · rw [insert, dif_pos present, insert, dif_pos (keys ▸ present)]
    simp only [mapValues, List.map_map]
    apply List.map_congr_left
    rintro ⟨k, v⟩ -
    by_cases hk : k = key
    · subst hk
      simp
    · simp [hk]
  · rw [insert, dif_neg present, insert, dif_neg (keys ▸ present)]
    simp [mapValues]

theorem mapValues_erase (f : κ → ν → μ) (t : Table κ ν) (key : κ) :
    (t.erase key).mapValues f = (t.mapValues f).erase key := by
  apply ext_entries
  simp only [erase, filter, mapValues, List.filter_map]
  rfl

end Values

end Table

/-- What is pending does not matter to seeing a policy again. -/
theorem PolicyRecord.seen_congr {old old' : PolicyRecord} (h : old'.atRest = old.atRest)
    (controller : ControllerName) (kind : PolicyKind) (facts : PolicyFacts) :
    (old'.seen controller kind facts).1 = (old.seen controller kind facts).1 ∧
      (old'.seen controller kind facts).2.atRest = (old.seen controller kind facts).2.atRest := by
  rw [PolicyRecord.atRest_eq_iff.1 h]
  exact ⟨rfl, rfl⟩

/-- Of the reporter only its name matters to what is recorded. -/
theorem Review.recordAll_congr {reporter reporter' : Reporter}
    (h : reporter'.controller = reporter.controller) (ref : PolicyKey) (generation : Option Int)
    (now : Instant) (register : Register) (entries : List AncestryEntry) :
    recordAll reporter' ref generation now register entries =
      recordAll reporter ref generation now register entries := by
  have same : record reporter' ref generation now = record reporter ref generation now := by
    funext ⟨register, blocked⟩ e
    rw [record_eq, record_eq, h]
  simp only [recordAll, same, h]

namespace Tracker

/-- What a review computes depends on the objects that are there, on the record at rest and on who
reports. -/
theorem review_congr {tr tr' : Tracker} {s s' : PolicyRecord}
    (controller : tr'.reporter.controller = tr.reporter.controller) (facts : tr'.facts = tr.facts)
    (targets : tr'.targets = tr.targets) (routes : tr'.routes = tr.routes)
    (same : s'.atRest = s.atRest) (now : Instant) (ref : PolicyKey) :
    (tr'.review now ref s').state.atRest = (tr.review now ref s).state.atRest ∧
      (tr'.review now ref s').blocked = (tr.review now ref s).blocked := by
  have attachments : tr'.attachments ref s.facts = tr.attachments ref s.facts :=
    attachments_congr rfl (contenders_of_facts facts ref.kind) fun target _ => by rw [targets]
  rw [PolicyRecord.atRest_eq_iff.1 same]
  simp only [Tracker.review, attachments, routes, Review.recordAll_congr controller, and_true]
  rfl

/-- Both trackers hold the same but for what is pending, what counts as shown on ancestors, what
waits in the queue and the rule for conditions that do not fit. -/
structure SameView (tr tr' : Tracker) : Prop where
  controller : tr'.reporter.controller = tr.reporter.controller
  records : tr'.policies.mapValues (fun _ => PolicyRecord.atRest) =
    tr.policies.mapValues fun _ => PolicyRecord.atRest
  targets : tr'.targets = tr.targets
  routes : tr'.routes = tr.routes
  marks : tr'.marks = tr.marks
  turnedAway : tr'.turnedAway = tr.turnedAway

namespace SameView

variable {tr tr' tr'' : Tracker} {m m' : Moment}

theorem refl (tr : Tracker) : SameView tr tr := ⟨rfl, rfl, rfl, rfl, rfl, rfl⟩

theorem symm (h : SameView tr tr') : SameView tr' tr :=
  ⟨h.controller.symm, h.records.symm, h.targets.symm, h.routes.symm, h.marks.symm,
    h.turnedAway.symm⟩

theorem trans (h : SameView tr tr') (h' : SameView tr' tr'') : SameView tr tr'' :=
  ⟨h'.controller.trans h.controller, h'.records.trans h.records, h'.targets.trans h.targets,
    h'.routes.trans h.routes, h'.marks.trans h.marks, h'.turnedAway.trans h.turnedAway⟩

/-- Offering changes to the queue shows in no view. -/
theorem of_sends {leads : Bool} {offered : List StatusChange} (sends : Sends leads offered tr tr')
    (turnedAway : tr'.turnedAway = tr.turnedAway) : SameView tr tr' :=
  ⟨congrArg Reporter.controller sends.reporter, sends.records, sends.targets, sends.routes,
    sends.marks, turnedAway⟩

/-- What never changes the view does not change it when it is repeated. -/
theorem foldl {α : Type} {f : Tracker → α → Tracker} (step : ∀ tr a, SameView tr (f tr a))
    (as : List α) (tr : Tracker) : SameView tr (as.foldl f tr) := by
  induction as generalizing tr with
  | nil => exact refl tr
  | cons a as ih => exact (step tr a).trans (ih (f tr a))

theorem send (leads : Bool) (tr : Tracker) (due : Due) : SameView tr (tr.send leads due) := by
  apply of_sends (sends_send leads tr due)
  simp only [Tracker.send]
  split
  · split <;> rfl
  · rfl

theorem flag (leads force : Bool) (tr : Tracker) (desired : Target × Condition) :
    SameView tr (tr.flag leads force desired) := by
  obtain ⟨offered, -, sends, -⟩ := sendsFlags_flag leads force tr desired
  apply of_sends sends
  simp only [Tracker.flag]
  split
  · rfl
  · split
    · rfl
    · split <;> rfl

theorem unflag (leads : Bool) (tr : Tracker) (ancestor : Target) :
    SameView tr (tr.unflag leads ancestor) := by
  obtain ⟨offered, -, sends, -⟩ := sendsFlags_unflag leads tr ancestor
  apply of_sends sends
  simp only [Tracker.unflag]
  split
  · rfl
  · split <;> rfl

/-- Bringing conditions up to date does not change the view. -/
theorem syncFlags (m : Moment) (force : Bool) (tr : Tracker) : SameView tr (tr.syncFlags m force) :=
  (foldl (flag m.leads force) _ tr).trans (foldl (unflag m.leads) _ _)

section Reviewing

variable (h : SameView tr tr')
include h

theorem facts : tr'.facts = tr.facts :=
  facts_of_records h.records fun _ _ => rfl

/-- A review comes to the same from the same view. -/
theorem review {s s' : PolicyRecord} (same : s'.atRest = s.atRest) (now : Instant)
    (ref : PolicyKey) :
    (tr'.review now ref s').state.atRest = (tr.review now ref s).state.atRest ∧
      (tr'.review now ref s').blocked = (tr.review now ref s).blocked :=
  review_congr h.controller h.facts h.targets h.routes same now ref

theorem reviewIn {s s' : PolicyRecord} (same : s'.atRest = s.atRest) (now : Instant)
    (kind : PolicyKind) (ref : PolicyKey) :
    (tr'.reviewIn now kind ref s').state.atRest = (tr.reviewIn now kind ref s).state.atRest ∧
      (tr'.reviewIn now kind ref s').blocked = (tr.reviewIn now kind ref s).blocked := by
  unfold Tracker.reviewIn
  split
  · exact h.review same now ref
  · exact ⟨same, rfl⟩

/-- The same ancestors are blocked in the same view. -/
theorem allBlocked (now : Instant) (kind : PolicyKind) :
    Tracker.allBlocked (tr'.reviewsIn now kind) = Tracker.allBlocked (tr.reviewsIn now kind) := by
  have alike : tr'.policies.mapValues (fun ref s => (tr'.reviewIn now kind ref s).blocked) =
      tr.policies.mapValues fun ref s => (tr.reviewIn now kind ref s).blocked :=
    Table.mapValues_congr h.records fun ref _ _ same => (h.reviewIn same now kind ref).2
  have byBlocked : ∀ tr : Tracker, Tracker.allBlocked (tr.reviewsIn now kind) =
      (tr.policies.mapValues fun ref s => (tr.reviewIn now kind ref s).blocked).entries.flatMap
        fun e => e.2.map fun b => (b.1, e.1, b.2) := by
    intro tr
    simp only [Tracker.allBlocked, reviewsIn, Table.mapValues, List.flatMap_map]
  rw [byBlocked, byBlocked, alike]

/-- What a pass computes shows in no more than the view and the clock. -/
theorem passOver (clock : m'.now = m.now) (retry retry' : Bool) (kind : PolicyKind) :
    SameView (tr.passOver m retry kind) (tr'.passOver m' retry' kind) := by
  refine (SameView.symm (foldl (send m.leads) _ _)).trans (trans ?_ (foldl (send m'.leads) _ _))
  have blocked := clock ▸ h.allBlocked m.now kind
  refine ⟨h.controller, ?_, h.targets, h.routes, ?_, ?_⟩
  · have states : ∀ (tr : Tracker) (now : Instant),
        ((tr.reviewsIn now kind).mapValues fun _ r => r.state).mapValues
          (fun _ => PolicyRecord.atRest) =
        tr.policies.mapValues fun ref s => (tr.reviewIn now kind ref s).state.atRest := by
      intro tr now
      apply Table.ext_entries
      simp only [reviewsIn, Table.mapValues, List.map_map]
      rfl
    rw [states, states, clock]
    exact Table.mapValues_congr h.records fun ref _ _ same => (h.reviewIn same m.now kind ref).1
  · rw [clock, h.allBlocked m.now kind, h.marks]
  · rw [clock, h.allBlocked m.now kind, h.turnedAway]

theorem foldl_passOver (clock : m'.now = m.now) (retry retry' : Bool) (kinds : List PolicyKind) :
    SameView (kinds.foldl (Tracker.passOver m retry) tr)
      (kinds.foldl (Tracker.passOver m' retry') tr') := by
  induction kinds generalizing tr tr' with
  | nil => exact h
  | cons kind kinds ih => exact ih (h.passOver clock retry retry' kind)

/-- A pass over some kinds, by two instances at the same time. -/
theorem pass (clock : m'.now = m.now) (kinds : List PolicyKind) :
    SameView (tr.pass m kinds) (tr'.pass m' kinds) := by
  unfold Tracker.pass
  split
  · exact h
  · exact (SameView.symm (syncFlags m false _)).trans
      ((h.foldl_passOver clock false false kinds).trans (syncFlags m' false _))

/-- The pass over all policies leaves the same view, whoever leads. -/
theorem fullPass (clock : m'.now = m.now) (leaseChanged leaseChanged' : Bool) :
    SameView (tr.fullPass m leaseChanged) (tr'.fullPass m' leaseChanged') :=
  (SameView.symm (syncFlags m leaseChanged _)).trans
    ((h.foldl_passOver clock true true PolicyKind.all).trans (syncFlags m' leaseChanged' _))

end Reviewing

section Handlers

variable (h : SameView tr tr')
include h

theorem get? (ref : PolicyKey) :
    (tr'.policies.get? ref).map PolicyRecord.atRest = (tr.policies.get? ref).map PolicyRecord.atRest := by
  have same := congrArg (fun t => t.get? ref) h.records
  simpa only [Table.get?_mapValues] using same

/-- Seeing a policy comes to the same from the same view. -/
theorem sighting (ref : PolicyKey) (facts : PolicyFacts) :
    (tr'.sighting ref facts).1 = (tr.sighting ref facts).1 ∧
      (tr'.sighting ref facts).2.atRest = (tr.sighting ref facts).2.atRest := by
  have known := h.get? ref
  unfold Tracker.sighting
  cases hs : tr.policies.get? ref with
  | none =>
    rw [hs, Option.map_none, Option.map_eq_none_iff] at known
    rw [known, h.controller]
    exact ⟨rfl, rfl⟩
  | some old =>
    rw [hs, Option.map_some] at known
    obtain ⟨old', hs', same⟩ := Option.map_eq_some_iff.1 known
    rw [hs', h.controller]
    exact PolicyRecord.seen_congr same _ _ _

theorem withPolicies {policies policies' : Table PolicyKey PolicyRecord}
    (records : policies'.mapValues (fun _ => PolicyRecord.atRest) =
      policies.mapValues fun _ => PolicyRecord.atRest) :
    SameView { tr with policies } { tr' with policies := policies' } :=
  { h with records }

/-- A policy that comes leaves the same view. -/
theorem putPolicy (clock : m'.now = m.now) (ref : PolicyKey) (facts : PolicyFacts) :
    SameView (tr.putPolicy m ref facts) (tr'.putPolicy m' ref facts) := by
  obtain ⟨changed, record⟩ := h.sighting ref facts
  have sighted : SameView (tr.sighted ref facts) (tr'.sighted ref facts) := by
    apply h.withPolicies
    rw [Table.mapValues_insert, Table.mapValues_insert, h.records, record]
  rw [putPolicy_eq, putPolicy_eq, changed]
  split
  · exact sighted.pass clock [ref.kind]
  · exact sighted

theorem dropPolicy (clock : m'.now = m.now) (ref : PolicyKey) :
    SameView (tr.dropPolicy m ref) (tr'.dropPolicy m' ref) := by
  have known : tr'.policies.contains ref = tr.policies.contains ref := by
    simpa [Table.contains] using congrArg Option.isSome (h.get? ref)
  have dropped : SameView { tr with policies := tr.policies.erase ref }
      { tr' with policies := tr'.policies.erase ref } := by
    apply h.withPolicies
    rw [Table.mapValues_erase, Table.mapValues_erase, h.records]
  unfold Tracker.dropPolicy
  rw [known]
  split
  · exact dropped.pass clock [ref.kind]
  · exact h

theorem withTargets (targets : Table Target Unit) :
    SameView { tr with targets } { tr' with targets } :=
  { h with targets := rfl }

theorem withRoutes (routes : Table Target RouteLinks) :
    SameView { tr with routes } { tr' with routes } :=
  { h with routes := rfl }

theorem passAfterTarget (clock : m'.now = m.now) (target : Target) :
    SameView (tr.passAfterTarget m target) (tr'.passAfterTarget m' target) := by
  unfold Tracker.passAfterTarget
  rw [kindsWith_of_facts (fun _ f => f.targets.contains target) h.facts]
  exact h.pass clock _

theorem afterRoute (clock : m'.now = m.now) (changed : Bool) :
    SameView (if changed then tr.passAfterRoute m else tr)
      (if changed then tr'.passAfterRoute m' else tr') := by
  split
  · unfold passAfterRoute
    rw [kindsWith_of_facts (fun ref _ => ref.kind.reportsByAncestor) h.facts]
    exact h.pass clock _
  · exact h

theorem putTarget (clock : m'.now = m.now) (target : Target) :
    SameView (tr.putTarget m target) (tr'.putTarget m' target) := by
  unfold Tracker.putTarget
  rw [h.targets]
  split
  · exact h
  · exact (h.withTargets _).passAfterTarget clock target

theorem dropTarget (clock : m'.now = m.now) (target : Target) :
    SameView (tr.dropTarget m target) (tr'.dropTarget m' target) := by
  unfold Tracker.dropTarget
  rw [h.targets]
  split
  · exact (h.withTargets _).passAfterTarget clock target
  · exact h

theorem putRoute (clock : m'.now = m.now) (route : Target) (refs : RouteLinks) :
    SameView (tr.putRoute m route refs) (tr'.putRoute m' route refs) := by
  unfold Tracker.putRoute
  rw [h.routes]
  exact ((h.withRoutes (tr.routes.insert route refs)).putTarget clock route).afterRoute clock _

theorem dropRoute (clock : m'.now = m.now) (route : Target) :
    SameView (tr.dropRoute m route) (tr'.dropRoute m' route) := by
  unfold Tracker.dropRoute
  rw [h.routes]
  exact ((h.withRoutes (tr.routes.erase route)).dropTarget clock route).afterRoute clock _

theorem putObject (clock : m'.now = m.now) (ns name : String) (object : WatchedObject) :
    SameView (tr.putObject m ns name object) (tr'.putObject m' ns name object) := by
  cases object with
  | service metadata => exact h.putTarget clock _
  | gateway metadata => exact h.putTarget clock _
  | httpRoute metadata spec => exact h.putRoute clock _ _
  | policy p => exact h.putPolicy clock _ _

theorem dropObject (clock : m'.now = m.now) (ns name : String) (kind : WatchedKind) :
    SameView (tr.dropObject m ns name kind) (tr'.dropObject m' ns name kind) := by
  cases kind with
  | service => exact h.dropTarget clock _
  | gateway => exact h.dropTarget clock _
  | httpRoute => exact h.dropRoute clock _
  | policy kind => exact h.dropPolicy clock _

/-- An event that one tracker takes is one that the other takes, with the same view after it. -/
theorem handle (clock : m'.now = m.now) {e : Event} {next : Tracker}
    (taken : tr.handle m e = .ok next) : ∃ next', tr'.handle m' e = .ok next' ∧ SameView next next' := by
  cases e with
  | applied object =>
    simp only [Tracker.handle] at taken ⊢
    split at taken
    · cases taken
      exact ⟨tr', rfl, h⟩
    · cases taken
    · cases taken
      exact ⟨_, rfl, h.putObject clock _ _ object⟩
  | deleted kind ns name =>
    cases taken
    exact ⟨_, rfl, h.dropObject clock ns name kind⟩

end Handlers

end SameView

end Tracker
end PolicyAttachment
