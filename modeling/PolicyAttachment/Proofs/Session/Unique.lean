import Mathlib.Data.List.Induction
import PolicyAttachment.Proofs.Register.Unique
import PolicyAttachment.Proofs.Session.History
import PolicyAttachment.Proofs.Session.Shared

/-!
# One entry per ancestor and writer in what is sent

As long as every status that is seen is a table, what is sent is one as well, but for entries of ours
that did not read when the policy was first seen: no review takes these out, and a report for the same
ancestor is recorded beside them. `Session.Run.nodup_sent_iff` says exactly when that happens.
-/

namespace PolicyAttachment
set_option autoImplicit false

/-- The entries that were stored in the policy when it was first seen, after it was last absent. -/
def firstStored (es : List Event) (ref : PolicyKey) : Option (List AncestorStatus) :=
  es.foldl
    (fun first e =>
      if e.place? = some ref.place then
        (e.object?.bind WatchedObject.policy?).map fun p =>
          first.getD p.storedAncestors.ancestors
      else first)
    none

section FirstStored

variable {es : List Event} {e : Event} {ref : PolicyKey}

/-- The first entries stay until the policy is deleted. -/
theorem firstStored_snoc (h : e.IsAbout ref) : firstStored (es ++ [e]) ref =
    (e.object?.bind WatchedObject.policy?).map fun p =>
      (firstStored es ref).getD p.storedAncestors.ancestors := by
  rw [firstStored, List.foldl_append]
  exact if_pos h

theorem firstStored_snoc_of_not_isAbout (h : ¬ e.IsAbout ref) :
    firstStored (es ++ [e]) ref = firstStored es ref := by
  rw [firstStored, List.foldl_append]
  exact if_neg h

/-- There are such entries, perhaps none, for as long as the policy is present. -/
theorem isSome_firstStored (es : List Event) (ref : PolicyKey) :
    (firstStored es ref).isSome = (policyAfter es ref).isSome := by
  induction es using List.reverseRecOn with
  | nil => rfl
  | append_singleton es e ih =>
    by_cases about : e.IsAbout ref
    · rw [firstStored_snoc about, policyAfter_snoc about, Option.isSome_map]
    · rw [firstStored_snoc_of_not_isAbout about, policyAfter_snoc_of_not_isAbout about, ih]

end FirstStored

/-- The stored entries are a table with room for all of them in a register. -/
structure IsTable (l : List AncestorStatus) : Prop where
  few : l.length ≤ maxAncestors
  nodup : (l.map AncestorStatus.identity).Nodup

/-- A table can be the list of a register. -/
theorem IsTable.registrable {l : List AncestorStatus} (h : IsTable l) : Registrable l :=
  registrable_of_nodup h.few h.nodup

/-- Every status that is seen is a table. -/
def SeesTables (es : List Event) : Prop :=
  ∀ p, Event.applied (.policy p) ∈ es → IsTable p.storedAncestors.ancestors

theorem SeesTables.prefix_snoc {es : List Event} {e : Event} (h : SeesTables (es ++ [e])) :
    SeesTables es :=
  fun p hp => h p (List.mem_append_left _ hp)

theorem seesTables_singleton_iff {p : Policy} :
    SeesTables [.applied (.policy p)] ↔ IsTable p.storedAncestors.ancestors := by
  simp [SeesTables]

/-- If only tables are seen, the register carries what was stored at first. -/
def CarriesFirst (ours : ControllerName) (ref : PolicyKey) (es : List Event)
    (s : PolicyRecord) : Prop :=
  SeesTables es → ∃ first l, firstStored es ref = some first ∧ IsTable first ∧ IsTable l ∧
    s.register.Carries ours first l

/-- Seeing, reviewing and sending leave the first entries where they do not read. -/
theorem upheld_carriesFirst (reporter : Reporter) (ref : PolicyKey) :
    Upheld reporter ref (CarriesFirst reporter.controller ref) where
  lasting es :=
    { review := by
        rintro tr s now rfl held tables
        obtain ⟨first, l, hfirst, table, table', carries⟩ := held tables
        refine ⟨first, l, hfirst, table, table', ?_⟩
        cases hk : ref.kind.reportsByAncestor with
        | true =>
          obtain ⟨crowd, mirrors⟩ := carries.mirrors
          exact carries.reviewed (Tracker.reviewed_review tr now mirrors.sound hk)
        | false =>
          rw [(Tracker.review_of_not_reportsByAncestor hk).1]
          exact carries
      sent := fun _ held => held }
  first {es p} about absent tables := by
    have table := tables p (List.mem_append_right _ (List.mem_singleton_self _))
    have fresh : firstStored es ref = none := by
      rw [← Option.not_isSome_iff_eq_none, isSome_firstStored, absent]
      exact Bool.false_ne_true
    obtain ⟨r, hr, entries, sound⟩ :=
      Register.exists_ofStatus table.registrable.distinct table.few
    refine ⟨p.storedAncestors.ancestors, p.storedAncestors.ancestors, ?_, table, table, ?_⟩
    · rw [firstStored_snoc about, fresh]
      rfl
    have register : (PolicyRecord.first reporter.controller ref.kind
        (p.facts ref.id.ns)).register = r := by
      simp only [PolicyRecord.first, Policy.facts, hr]
    rw [register]
    exact Register.carries_of_entries table.registrable sound entries
  again {es p old} about held tables := by
    have table := tables p (List.mem_append_right _ (List.mem_singleton_self _))
    obtain ⟨first, l, hfirst, tableFirst, -, carries⟩ := held tables.prefix_snoc
    refine ⟨first, _, ?_, tableFirst, table, carries.takeOver table.registrable⟩
    rw [firstStored_snoc about, hfirst]
    rfl
  elsewhere other held tables := by
    obtain ⟨first, l, hfirst, rest⟩ := held tables.prefix_snoc
    exact ⟨first, l, (firstStored_snoc_of_not_isAbout other).trans hfirst, rest⟩

namespace Session

open Entry (unreadable known?)

variable {reporter : Reporter} {ref : PolicyKey} {es : List Event} {ps : List Pass} {s s' : Session}
  {now : Instant} {o : Occurrence}

/-- In every run that sees only tables, the entries that are put into the queue for a policy are a table
exactly if those of ours that read are about other ancestors than those of ours that were stored when
the policy was first seen and do not read. These stay in the register, and a report that is recorded has
the only entry for its ancestor and writer exactly if no such entry, nor an unreadable one of another
writer, is about them. -/
theorem Run.nodup_sent_iff (run : Run reporter es ps s) (h : s.step now o = .ok s')
    (tables : SeesTables (es ++ o.events)) :
    (∀ version status l, (version, status) ∈ statusesOf ref (s.enqueued s') →
      status.ancestors = some l → ∃ first, firstStored (es ++ o.events) ref = some first ∧
        ((l.map AncestorStatus.identity).Nodup ↔
          ∀ a ∈ unreadable reporter.controller first, ∀ b ∈ l, (known? b).isSome →
            b.identity ≠ a.identity)) ∧
    (∀ r, s'.tracker.policies.get? ref = some r →
      ∃ first, firstStored (es ++ o.events) ref = some first ∧
        Entry.unread (Entry.own reporter.controller r.register.entries) =
          unreadable reporter.controller first ∧
        ∀ controller a cs how next, r.register.report controller a cs = .ok (how, next) →
          ((next.toStatus.ancestors.filter fun b => b.identity = (a, controller.text)).length = 1 ↔
            ∀ v ∈ Entry.unread r.register.entries, v.identity ≠ (a, controller.text))) := by
  have upheld := upheld_carriesFirst reporter ref
  constructor
  · intro version status l hm hl
    obtain ⟨r, held, -, rfl⟩ := (run.computed upheld h hm).exists_record (upheld.lasting _)
    obtain ⟨first, seen, hfirst, table, table', carries⟩ := held tables
    refine ⟨first, hfirst, ?_⟩
    cases hk : ref.kind.reportsByAncestor with
    | true =>
      rw [PolicyRecord.ancestors_status hk, Option.some.injEq] at hl
      subst hl
      exact carries.nodup_written_iff table.nodup table'.nodup
    | false => simp [PolicyRecord.status, WrittenStatus.of, hk] at hl
  · intro r hr
    obtain ⟨first, seen, hfirst, -, -, carries⟩ := (run.step now o h).upheld upheld r hr tables
    obtain ⟨crowd, mirrors⟩ := carries.mirrors
    exact ⟨first, hfirst, carries.unread, fun _ _ _ _ _ ok => mirrors.sound.report_unique_iff ok⟩

end Session

/-! A policy with an entry of ours that does not read. -/

namespace Sample

/-- An entry of ours for a Service, whose condition has a status that is not known. -/
def oddEntry (name : String) : AncestorStatus :=
  ⟨(service name).ancestorRef.toParent, ours.text,
    [⟨attachedType, "Maybe", "Attached", "", now, none⟩]⟩

/-- The policy with the target `a`, as it is seen for the first time. -/
def firstSighting (ancestors : List AncestorStatus) : Occurrence :=
  .event (.applied (.policy (policy "1" ["a"] ancestors)))

def afterFirstSighting (ancestors : List AncestorStatus) : Session :=
  start.sees now key (policy "1" ["a"] ancestors)

theorem step_firstSighting (ancestors : List AncestorStatus) :
    start.step now (firstSighting ancestors) = .ok (afterFirstSighting ancestors) :=
  Session.step_sees (Event.isAbout_policy_iff.2 ⟨rfl, rfl, rfl⟩) start now

/-- What is sent when the policy is first seen. -/
def firstSent (ancestors : List AncestorStatus) : List (Option String × WrittenStatus) :=
  statusesOf key (start.enqueued (afterFirstSighting ancestors))

end Sample

namespace Session

/-- The odd entry is for another Service than the one that is reported. -/
theorem nodup_sent_apart : ∃ version status l,
    (version, status) ∈ Sample.firstSent [Sample.oddEntry "b", Sample.stored "example.net/mesh" "a"] ∧
    status.ancestors = some l ∧ (l.map AncestorStatus.identity).Nodup ∧
    l.map AncestorStatus.controllerName =
      [Sample.ours.text, "example.net/mesh", Sample.ours.text] := by
  have sent : ∃ p ∈ Sample.firstSent [Sample.oddEntry "b", Sample.stored "example.net/mesh" "a"],
      ∃ l ∈ p.2.ancestors,
        (∀ b ∈ l, (Entry.known? b).isSome → b.identity ≠ (Sample.oddEntry "b").identity) ∧
        l.map AncestorStatus.controllerName =
          [Sample.ours.text, "example.net/mesh", Sample.ours.text] := by
    decide +kernel
  obtain ⟨⟨version, status⟩, hm, l, hl, apart, writers⟩ := sent
  obtain ⟨first, hfirst, unique⟩ := (Run.nodup_sent_iff (.start "h" ⟨"h", none⟩ 100)
    (Sample.step_firstSighting [Sample.oddEntry "b", Sample.stored "example.net/mesh" "a"])
    (seesTables_singleton_iff.2 ⟨by decide, by decide⟩)).1 version status l hm hl
  cases hfirst
  refine ⟨version, status, l, hm, hl, unique.2 ?_, writers⟩
  have odd : ∀ a ∈ Entry.unreadable Sample.reporter.controller
      [Sample.oddEntry "b", Sample.stored "example.net/mesh" "a"], a = Sample.oddEntry "b" := by
    decide
  intro a ha
  rw [odd a ha]
  exact apart

/-- The odd entry is for the Service that is reported, and its entry is sent beside it. -/
theorem not_nodup_sent : ∃ version status l,
    Sample.start.step Sample.now (Sample.firstSighting [Sample.oddEntry "a"]) =
      .ok (Sample.afterFirstSighting [Sample.oddEntry "a"]) ∧
    SeesTables (Sample.firstSighting [Sample.oddEntry "a"]).events ∧
    (version, status) ∈ Sample.firstSent [Sample.oddEntry "a"] ∧
    status.ancestors = some l ∧ l.length = 2 ∧
    (∀ b ∈ l, b.identity = (Sample.oddEntry "a").identity) ∧
    ¬ (l.map AncestorStatus.identity).Nodup := by
  have sent : ∃ p ∈ Sample.firstSent [Sample.oddEntry "a"], ∃ l ∈ p.2.ancestors,
      l.length = 2 ∧ (∀ b ∈ l, b.identity = (Sample.oddEntry "a").identity) ∧
        ¬ (l.map AncestorStatus.identity).Nodup := by
    decide +kernel
  obtain ⟨⟨version, status⟩, hm, l, hl, two, same, twice⟩ := sent
  exact ⟨version, status, l, Sample.step_firstSighting _,
    seesTables_singleton_iff.2 ⟨by decide, by decide⟩, hm, hl, two, same, twice⟩

end Session
end PolicyAttachment
