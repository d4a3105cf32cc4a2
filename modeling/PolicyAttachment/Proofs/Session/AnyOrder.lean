import PolicyAttachment.Proofs.Session.Log
import PolicyAttachment.Proofs.Tracker.AnyOrder

/-!
# Occurrences in any order of the tables

What an occurrence enters into the tracker and the stages that it leads to do not depend on the order of
any table, and neither does what the stages do. So an occurrence always ends with the same tracker and
the same changes in the queue, but for the order of the changes that one stage puts there:
`Session.step_anyOrder`.
-/

namespace PolicyAttachment
set_option autoImplicit false

open Table (Reorders)

namespace Stage

theorem Alike.refl (a : Stage) : Alike a a := by
  cases a with
  | place targets routes => exact .place (.refl targets) (.refl routes)
  | pass retry kind => exact .pass retry kind
  | sync force => exact .sync force

theorem forall₂_alike (as : List Stage) : List.Forall₂ Alike as as :=
  List.forall₂_same.2 fun a _ => .refl a

end Stage

namespace Tracker

variable {m : Moment} {tr tr' : Tracker}

theorem routeStages_of_facts (facts : tr'.facts = tr.facts) : tr'.routeStages = tr.routeStages := by
  unfold routeStages
  rw [kindsWith_of_facts (fun ref _ => ref.kind.reportsByAncestor) facts]

/-- Which policies there are does not change along with the targets. -/
theorem routeStages_putTarget (m : Moment) (tr : Tracker) (target : Target) :
    (tr.putTarget m target).routeStages = tr.routeStages :=
  routeStages_of_facts (sameObjects_putTarget m tr target).facts

theorem routeStages_dropTarget (m : Moment) (tr : Tracker) (target : Target) :
    (tr.dropTarget m target).routeStages = tr.routeStages :=
  routeStages_of_facts (sameObjects_dropTarget m tr target).facts

section Entering

variable (h : SameContents tr tr')
include h

/-- A policy is seen the same in every order of the tables. -/
theorem SameContents.sighting (ref : PolicyKey) (facts : PolicyFacts) :
    tr'.sighting ref facts = tr.sighting ref facts := by
  simp only [Tracker.sighting, h.policies.get?, h.reporter]

/-- What an event says of a policy is entered the same. -/
theorem SameContents.entered (e : Event) : SameContents (tr.entered e) (tr'.entered e) := by
  cases e with
  | applied object =>
    simp only [Tracker.entered]
    split
    · simp only [sighted, h.sighting]
      exact { h with policies := h.policies.insert _ _ }
    · exact h
  | deleted kind ns name =>
    cases kind with
    | policy kind => exact { h with policies := h.policies.erase _ }
    | service => exact h
    | gateway => exact h
    | httpRoute => exact h

/-- A target leads to the same passes in every order of the tables. -/
theorem SameContents.targetStages (target : Target) :
    tr'.targetStages target = tr.targetStages target := by
  unfold Tracker.targetStages
  rw [h.kindsWith]

theorem SameContents.routeStages : tr'.routeStages = tr.routeStages := by
  unfold Tracker.routeStages
  rw [h.kindsWith]

/-- A target that comes leads to stages that are alike. -/
theorem SameContents.putTargetStages (target : Target) :
    List.Forall₂ Stage.Alike (tr.putTargetStages target) (tr'.putTargetStages target) := by
  unfold Tracker.putTargetStages
  rw [h.targets.contains, h.targetStages]
  split
  · exact .nil
  · exact .cons (.place (h.targets.insert target ()) h.routes) (Stage.forall₂_alike _)

theorem SameContents.dropTargetStages (target : Target) :
    List.Forall₂ Stage.Alike (tr.dropTargetStages target) (tr'.dropTargetStages target) := by
  unfold Tracker.dropTargetStages
  rw [h.targets.contains, h.targetStages]
  split
  · exact .cons (.place (h.targets.erase target) h.routes) (Stage.forall₂_alike _)
  · exact .nil

theorem SameContents.putRouteStages (m : Moment) (route : Target) (refs : RouteLinks) :
    List.Forall₂ Stage.Alike (tr.putRouteStages m route refs) (tr'.putRouteStages m route refs) := by
  have linked : SameContents { tr with routes := tr.routes.insert route refs }
      { tr' with routes := tr'.routes.insert route refs } :=
    { h with routes := h.routes.insert route refs }
  simp only [Tracker.putRouteStages, routeStages_putTarget, linked.routeStages, h.routes.get?]
  exact List.rel_append (.cons (.place h.targets (h.routes.insert route refs))
    (linked.putTargetStages route)) (Stage.forall₂_alike _)

theorem SameContents.dropRouteStages (m : Moment) (route : Target) :
    List.Forall₂ Stage.Alike (tr.dropRouteStages m route) (tr'.dropRouteStages m route) := by
  have unlinked : SameContents { tr with routes := tr.routes.erase route }
      { tr' with routes := tr'.routes.erase route } :=
    { h with routes := h.routes.erase route }
  simp only [Tracker.dropRouteStages, routeStages_dropTarget, unlinked.routeStages,
    h.routes.contains]
  exact List.rel_append (.cons (.place h.targets (h.routes.erase route))
    (unlinked.dropTargetStages route)) (Stage.forall₂_alike _)

/-- An event leads to the same stages. -/
theorem SameContents.stages (m : Moment) (e : Event) :
    List.Forall₂ Stage.Alike (tr.stages m e) (tr'.stages m e) := by
  cases e with
  | applied object =>
    simp only [Tracker.stages]
    split
    · cases object with
      | service metadata => exact h.putTargetStages _
      | gateway metadata => exact h.putTargetStages _
      | httpRoute metadata spec => exact h.putRouteStages m _ _
      | policy p =>
        simp only [putObjectStages, putPolicyStages, h.sighting]
        exact Stage.forall₂_alike _
    · exact .nil
  | deleted kind ns name =>
    cases kind with
    | service => exact h.dropTargetStages _
    | gateway => exact h.dropTargetStages _
    | httpRoute => exact h.dropRouteStages m _
    | policy kind =>
      simp only [Tracker.stages, dropObjectStages, dropPolicyStages, h.policies.contains]
      exact Stage.forall₂_alike _

end Entering

end Tracker

namespace Session

open Tracker (Shuffled Alike SameContents)

variable {s s' : Session} {now : Instant} {o : Occurrence} {start : Tracker}

/-- The changes, stage by stage, and the tracker that an occurrence can lead to, if every table may be in
another order each time that it is gone through. -/
def Outcome (s : Session) (now : Instant) (o : Occurrence) (batches : List (List StatusChange))
    (tr : Tracker) : Prop :=
  ∃ start, Shuffled s.tracker start ∧
    Stage.Course (s.momentOf now o) ({ s with tracker := start }.entered o)
      ({ s with tracker := start }.stages now o) batches tr

/-- Where an occurrence starts from is the same but for the order of the tables. -/
theorem alike_entered (order : Shuffled s.tracker start) (o : Occurrence) :
    Alike (s.entered o) ({ s with tracker := start }.entered o) := by
  obtain ⟨contents, queue⟩ := order
  have plain : Alike s.tracker start := ⟨contents, queue ▸ .refl _⟩
  cases o with
  | event e =>
    refine ⟨contents.entered e, ?_⟩
    simp only [entered, Tracker.queue_entered]
    exact plain.queue
  | queueClosed =>
    refine ⟨{ contents with }, ?_⟩
    simp only [entered, queue]
    exact .refl _
  | tick => exact plain
  | claimed claim => exact plain
  | claimsClosed => exact plain
  | nothing => exact plain

/-- What an occurrence leads to is the same but for the order of the tables. -/
theorem alike_stages (order : Shuffled s.tracker start) (now : Instant) (o : Occurrence) :
    List.Forall₂ Stage.Alike (s.stages now o) ({ s with tracker := start }.stages now o) := by
  cases o with
  | event e => exact order.contents.stages _ e
  | tick => exact Stage.forall₂_alike _
  | claimed claim => exact Stage.forall₂_alike _
  | claimsClosed => exact .nil
  | queueClosed => exact .nil
  | nothing => exact .nil

/-- The order of the tables decides nothing but the order of the changes that one stage puts into the
queue, if nothing is lost. What an instance does is one of the outcomes, and any other leads to a
tracker that holds the same, each policy with the same record, after the same changes. -/
theorem step_anyOrder (h : s.step now o = .ok s')
    (lossless : Queue.Lossless (s.momentOf now o).leads s.tracker.queue s'.tracker.queue) :
    ∃ batches, s.Outcome now o batches s'.tracker ∧ ∀ batches' tr, s.Outcome now o batches' tr →
      Alike s'.tracker tr ∧ List.Forall₂ List.Perm batches batches' := by
  have ran := tracker_step h
  obtain ⟨batches, course⟩ := Stage.exists_course (s.momentOf now o) (s.entered o) (s.stages now o)
  rw [← ran] at course
  refine ⟨batches, ⟨s.tracker, .refl _, course⟩, ?_⟩
  rintro batches' tr ⟨start, order, other⟩
  have begins := alike_entered order o
  have same := alike_stages order now o
  by_cases ho : o = .queueClosed
  · subst ho
    cases h
    cases course
    cases other
    exact ⟨begins, .nil⟩
  · refine course.alike other same begins ?_
    have queue : (s.entered o).queue = s.tracker.queue := by
      cases o with
      | event e => exact s.tracker.queue_entered e
      | queueClosed => exact absurd rfl ho
      | tick => rfl
      | claimed claim => rfl
      | claimsClosed => rfl
      | nothing => rfl
    rw [queue]
    exact lossless

end Session

/-! Two policies of a kind, neither with its status stored. -/

namespace Sample

/-- A policy for a Service of its own name. -/
def named (name : String) : Policy :=
  .trafficDistribution
    { metadata :=
        { (default : Metadata) with
          ns := some "ns", name := some name, resourceVersion := some "1" }
      spec := ⟨[⟨"", "Service", name⟩], none⟩
      status := none }

/-- The tracker after it has seen such a policy. -/
def see (tr : Tracker) (name : String) : Tracker :=
  tr.putPolicy (start.moment now) ⟨.trafficDistribution, ⟨"ns", name⟩⟩ ((named name).facts "ns")

/-- An instance that has seen two of them. -/
def both : Session := { start with tracker := see (see start.tracker "b") "c" }

end Sample

namespace Session

open Tracker (Alike)

/-- The clock ticks and both statuses are sent again, in the order in which the policies come. -/
theorem step_anyOrder_both : ∃ s' batches, Sample.both.step Sample.now .tick = .ok s' ∧
    (Sample.both.enqueued s').length = 2 ∧
    Sample.both.Outcome Sample.now .tick batches s'.tracker ∧
    ∀ batches' tr, Sample.both.Outcome Sample.now .tick batches' tr →
      Alike s'.tracker tr ∧ List.Forall₂ List.Perm batches batches' := by
  have step : Sample.both.step Sample.now .tick = .ok (Sample.both.fullPass Sample.now false) := rfl
  have lossless : Queue.Lossless (Sample.both.momentOf Sample.now .tick).leads
      Sample.both.tracker.queue (Sample.both.fullPass Sample.now false).tracker.queue :=
    ⟨by decide +kernel, by decide +kernel, by decide +kernel⟩
  have two : (Sample.both.enqueued (Sample.both.fullPass Sample.now false)).length = 2 := by
    decide +kernel
  obtain ⟨batches, outcome, others⟩ := step_anyOrder step lossless
  exact ⟨_, batches, step, two, outcome, others⟩

end Session

end PolicyAttachment
