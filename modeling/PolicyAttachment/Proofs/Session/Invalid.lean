import Mathlib.Data.List.Induction
import PolicyAttachment.Proofs.Session.Present
import PolicyAttachment.Proofs.Session.Unique
import PolicyAttachment.Proofs.Tracker.Again
import PolicyAttachment.Proofs.Tracker.Contest

/-!
# Invalid policies

The text of what is wrong with a spec goes into the contests over the policy's targets, from there into
the outcome for each ancestor and the one for the policy as a whole, and so into the status. Whatever
we report of an invalid policy says that it is invalid, and why. There is something to report exactly
if the policy has a target, and an entry under our name that did not read when it was stored goes on
saying what it said: `Session.Run.invalid_reported_iff`.
-/

namespace PolicyAttachment
set_option autoImplicit false

/-- The condition tells that a policy is invalid for the reason `why`. -/
structure StoredCondition.SaysInvalid (why : String) (c : StoredCondition) : Prop where
  status : c.status = "False"
  reason : c.reason = "Invalid"
  message : c.message = "Policy is invalid: " ++ why

/-- Fractions of times do not matter to what is told. -/
theorem StoredCondition.saysInvalid_written {why : String} {c : StoredCondition} :
    c.written.SaysInvalid why ↔ c.SaysInvalid why :=
  ⟨fun h => ⟨h.status, h.reason, h.message⟩, fun h => ⟨h.status, h.reason, h.message⟩⟩

/-- The conditions called `Attached` that a controller records in a status: in the entries under its
name, and on the policy as a whole. -/
def WrittenStatus.attachedBy (ours : ControllerName) (s : WrittenStatus) : List StoredCondition :=
  (((s.ancestors.getD []).filter fun a => a.controllerName = ours.text).flatMap
      AncestorStatus.conditions ++ s.conditions.getD []).filter fun c => c.type = attachedType

/-- The controller reports the policy as invalid for the reason `why`, and as nothing else. -/
structure WrittenStatus.ReportsInvalid (ours : ControllerName) (why : String) (s : WrittenStatus) :
    Prop where
  reported : s.attachedBy ours ≠ []
  saysInvalid : ∀ c ∈ s.attachedBy ours, c.SaysInvalid why

/-- The conditions called `Attached` in the entries under our name that are kept as they were stored
because they do not read. -/
def PolicyRecord.attachedKept (ours : ControllerName) (kind : PolicyKind) (r : PolicyRecord) :
    List StoredCondition :=
  if kind.reportsByAncestor then
    ((Entry.unread (Entry.own ours r.register.entries)).flatMap AncestorStatus.conditions).filter
      fun c => c.type = attachedType
  else []

namespace PolicyRecord

variable {ours : ControllerName} {kind : PolicyKind} {r : PolicyRecord} {c : StoredCondition}

/-- A condition is kept if it stands in an entry of ours that does not read. -/
theorem mem_attachedKept_iff : c ∈ r.attachedKept ours kind ↔ kind.reportsByAncestor = true ∧
    c.type = attachedType ∧
      ∃ v, .verbatim v ∈ r.register.entries ∧ v.controllerName = ours.text ∧ c ∈ v.conditions := by
  unfold attachedKept
  split
  · rename_i hk
    simp only [List.mem_filter, List.mem_flatMap, Entry.unread_own, Entry.mem_unread_iff,
      decide_eq_true_eq, and_assoc, hk, true_and]
    rw [and_comm]
  · rename_i hk
    simp [hk]

/-- What is recorded under our name in the entries is in one that is known, or in one that is kept. -/
theorem mem_conditions_own_iff (hk : kind.reportsByAncestor = true) :
    (c.type = attachedType ∧ ∃ e ∈ r.register.entries, e.writer = ours.text ∧
      c ∈ e.written.conditions) ↔
    (∃ a cs d, .known ⟨a, ours⟩ cs ∈ r.register.entries ∧ d ∈ cs.conditions ∧
      d.type = attachedType ∧ c = d.toStored.written) ∨
    ∃ d ∈ r.attachedKept ours kind, c = d.written := by
  simp only [mem_attachedKept_iff, hk, true_and]
  constructor
  · rintro ⟨ht, e, he, writer, hc⟩
    cases e with
    | known key cs =>
      obtain ⟨stored, hstored, rfl⟩ := List.mem_map.1 hc
      obtain ⟨d, hd, rfl⟩ := List.mem_map.1 hstored
      have hkey : key = ⟨key.ancestor, ours⟩ := by
        rw [← ControllerName.ext_text writer]
      rw [hkey] at he
      exact .inl ⟨key.ancestor, cs, d, he, hd, ht, rfl⟩
    | verbatim v =>
      obtain ⟨d, hd, rfl⟩ := List.mem_map.1 hc
      exact .inr ⟨d, ⟨ht, v, he, writer, hd⟩, rfl⟩
  · rintro (⟨a, cs, d, he, hd, ht, rfl⟩ | ⟨d, ⟨ht, v, he, writer, hd⟩, rfl⟩)
    · exact ⟨ht, _, he, rfl, List.mem_map_of_mem (List.mem_map_of_mem hd)⟩
    · exact ⟨ht, _, he, writer, List.mem_map_of_mem hd⟩

/-- What is recorded under our name: on the policy as a whole, in an entry that is known, or in one that
is kept. -/
theorem mem_attachedBy_iff : c ∈ (r.status kind).attachedBy ours ↔
    (kind.reportsByAncestor = true ∧
      ((∃ a cs d, .known ⟨a, ours⟩ cs ∈ r.register.entries ∧ d ∈ cs.conditions ∧
          d.type = attachedType ∧ c = d.toStored.written) ∨
        ∃ d ∈ r.attachedKept ours kind, c = d.written)) ∨
    (kind.reportsAsWhole = true ∧
      ∃ d ∈ r.conditions.conditions, d.type = attachedType ∧ c = d.toStored.written) := by
  have entries : (c.type = attachedType ∧ ∃ a ∈ (r.status kind).ancestors.getD [],
      a.controllerName = ours.text ∧ c ∈ a.conditions) ↔ kind.reportsByAncestor = true ∧
        (c.type = attachedType ∧ ∃ e ∈ r.register.entries, e.writer = ours.text ∧
          c ∈ e.written.conditions) := by
    cases hk : kind.reportsByAncestor with
    | false => simp [status_eq, hk]
    | true => simp [ancestors_status hk, Entry.controllerName_written]
  have whole : (c.type = attachedType ∧ c ∈ (r.status kind).conditions.getD []) ↔
      kind.reportsAsWhole = true ∧
        ∃ d ∈ r.conditions.conditions, d.type = attachedType ∧ c = d.toStored.written := by
    cases hk : kind.reportsAsWhole with
    | false => simp [status_eq, hk]
    | true =>
      simp only [conditions_status hk, Option.getD_some, ConditionSet.toStored, List.map_map,
        List.mem_map, Function.comp, true_and]
      constructor
      · rintro ⟨ht, d, hd, rfl⟩
        exact ⟨d, hd, ht, rfl⟩
      · rintro ⟨d, hd, ht, rfl⟩
        exact ⟨ht, d, hd, rfl⟩
  simp only [WrittenStatus.attachedBy, List.mem_filter, List.mem_append, List.mem_flatMap,
    decide_eq_true_eq, and_assoc]
  rw [and_comm, and_or_left, entries, whole]
  refine or_congr (and_congr_right fun hk => mem_conditions_own_iff hk) Iff.rfl

/-- What is kept is written as it is, but for the fractions of its times. -/
theorem written_mem_attachedBy (h : c ∈ r.attachedKept ours kind) :
    c.written ∈ (r.status kind).attachedBy ours :=
  mem_attachedBy_iff.2 (.inl ⟨(mem_attachedKept_iff.1 h).1, .inr ⟨c, h, rfl⟩⟩)

end PolicyRecord

/-- Whatever says the same as the outcome for an invalid policy tells that it is invalid. -/
theorem Condition.SaysSame.saysInvalid {d : Condition} {why : String} {target : Target}
    {generation : Option Int} {now : Instant}
    (h : d.SaysSame ((Attachment.invalid why).condition target generation now)) :
    d.type = attachedType ∧ d.toStored.written.SaysInvalid why :=
  ⟨h.type, congrArg ConditionStatus.text h.status, h.reason, h.message⟩

namespace Tracker

variable {tr : Tracker} {ref : PolicyKey} {r : PolicyRecord} {why : String}

/-- What is said about an invalid policy on any ancestor is that it is invalid. -/
theorem attachment_of_mem_ancestry (hr : tr.policies.get? ref = some r)
    (invalid : r.facts.invalid = some why) {e : AncestryEntry} (he : e ∈ tr.ancestry ref r.facts) :
    e.attachment = .invalid why := by
  have outcome := (AncestryEntry.mem_of_mem_ofAttachments he).1
  rw [attachments_of_invalid hr invalid] at outcome
  obtain ⟨t, -, heq⟩ := List.mem_map.1 outcome
  exact (Prod.mk.inj heq).2.symm

/-- A policy with an entry of ours has a target. -/
theorem Shown.targets_ne_nil (shown : Shown tr ref r) (hk : ref.kind.reportsByAncestor = true)
    {a : AncestorRef} {cs : ConditionSet}
    (he : .known ⟨a, tr.reporter.controller⟩ cs ∈ r.register.entries) : r.facts.targets ≠ [] := by
  obtain ⟨e, hmem, -, rfl⟩ := (shown.ancestors hk a).1 (Register.mem_ancestorsOf_iff.2 ⟨cs, he⟩)
  obtain ⟨t, ht, -⟩ := List.mem_map.1 (AncestryEntry.mem_of_mem_ofAttachments hmem).1
  exact List.ne_nil_of_mem ht

section Invalid

variable (shown : Shown tr ref r) (hr : tr.policies.get? ref = some r)
  (invalid : r.facts.invalid = some why)
include shown hr invalid

/-- A known entry of ours has one condition, which tells that the policy is invalid. -/
theorem Shown.entry_of_invalid (sound : r.register.Sound) (hk : ref.kind.reportsByAncestor = true)
    {a : AncestorRef} {cs : ConditionSet}
    (he : .known ⟨a, tr.reporter.controller⟩ cs ∈ r.register.entries) :
    ∃ d, cs.conditions = [d] ∧ d.type = attachedType ∧ d.toStored.written.SaysInvalid why := by
  obtain ⟨e, hmem, unmarked, rfl⟩ := (shown.ancestors hk a).1 (Register.mem_ancestorsOf_iff.2 ⟨cs, he⟩)
  obtain ⟨cs', hget, alone⟩ := shown.reports hk e hmem unmarked
  have found : r.register.get? (e.key tr.reporter.controller) = some cs := sound.get?_eq_some_iff.2 he
  obtain rfl := Option.some.inj (hget.symm.trans found)
  obtain ⟨d, only, same⟩ := alone ⟨0, 0⟩
  rw [AncestryEntry.condition, attachment_of_mem_ancestry hr invalid hmem] at same
  exact ⟨d, only, same.saysInvalid⟩

/-- An invalid policy with a target, none of whose ancestors is marked, has such an entry. -/
theorem Shown.exists_entry_of_invalid (sound : r.register.Sound)
    (hk : ref.kind.reportsByAncestor = true) (clear : ∀ a, tr.markOf? a ref = none)
    (targets : r.facts.targets ≠ []) :
    ∃ a cs, .known ⟨a, tr.reporter.controller⟩ cs ∈ r.register.entries := by
  have outcomes : tr.attachments ref r.facts ≠ [] := by
    rw [attachments_of_invalid hr invalid]
    simpa using targets
  obtain ⟨e, he⟩ := List.exists_mem_of_ne_nil _ (AncestryEntry.ofAttachments_ne_nil outcomes)
  obtain ⟨cs, hget, -⟩ := shown.reports hk e he (clear e.ancestor)
  exact ⟨_, cs, sound.get?_eq_some_iff.1 hget⟩

/-- The condition of an invalid policy as a whole tells that it is invalid. -/
theorem Shown.whole_of_invalid (hk : ref.kind.reportsAsWhole = true) {t : Target}
    (targets : r.facts.targets = [t]) :
    ∃ c, (r.conditions.conditions.filter fun d => d.type = attachedType) = [c] ∧
      c.toStored.written.SaysInvalid why := by
  obtain ⟨c, only, same⟩ := shown.overall hk
  have outcome := same ⟨0, 0⟩
  rw [attachments_of_invalid hr invalid, targets] at outcome
  exact ⟨c, only, outcome.saysInvalid.2⟩

/-- Whatever is recorded under our name tells that the policy is invalid, or was kept. -/
theorem Shown.saysInvalid_or_kept (sound : r.register.Sound)
    (single : ref.kind.reportsAsWhole = true → ∃ t, r.facts.targets = [t]) {c : StoredCondition}
    (hc : c ∈ (r.status ref.kind).attachedBy tr.reporter.controller) :
    c.SaysInvalid why ∨ ∃ d ∈ r.attachedKept tr.reporter.controller ref.kind, c = d.written := by
  rcases PolicyRecord.mem_attachedBy_iff.1 hc with ⟨hk, ⟨a, cs, d, he, hd, -, rfl⟩ | kept⟩ |
    ⟨hk, d, hd, ht, rfl⟩
  · obtain ⟨d', only, -, tells⟩ := shown.entry_of_invalid hr invalid sound hk he
    rw [only, List.mem_singleton] at hd
    rw [hd]
    exact .inl tells
  · exact .inr kept
  · obtain ⟨t, targets⟩ := single hk
    obtain ⟨d', only, tells⟩ := shown.whole_of_invalid hr invalid hk targets
    have hm : d ∈ r.conditions.conditions.filter fun d => d.type = attachedType :=
      List.mem_filter.2 ⟨hd, decide_eq_true ht⟩
    rw [only, List.mem_singleton] at hm
    rw [hm]
    exact .inl tells

/-- Something is recorded under our name exactly if the policy has a target or something was kept. -/
theorem Shown.attachedBy_ne_nil_iff (sound : r.register.Sound)
    (single : ref.kind.reportsAsWhole = true → ∃ t, r.facts.targets = [t])
    (clear : ∀ a, tr.markOf? a ref = none) :
    (r.status ref.kind).attachedBy tr.reporter.controller ≠ [] ↔
      r.facts.targets ≠ [] ∨ r.attachedKept tr.reporter.controller ref.kind ≠ [] := by
  constructor
  · intro reported
    obtain ⟨c, hc⟩ := List.exists_mem_of_ne_nil _ reported
    rcases PolicyRecord.mem_attachedBy_iff.1 hc with ⟨hk, ⟨a, cs, d, he, -⟩ | ⟨d, hd, -⟩⟩ | ⟨hk, -⟩
    · exact .inl (shown.targets_ne_nil hk he)
    · exact .inr (List.ne_nil_of_mem hd)
    · obtain ⟨t, targets⟩ := single hk
      rw [targets]
      exact .inl (List.cons_ne_nil t [])
  · rintro (targeted | keeps)
    · rcases Bool.or_eq_true_iff.1 ref.kind.reports_somewhere with hk | hk
      · obtain ⟨a, cs, he⟩ := shown.exists_entry_of_invalid hr invalid sound hk clear targeted
        obtain ⟨d, only, ht, -⟩ := shown.entry_of_invalid hr invalid sound hk he
        exact List.ne_nil_of_mem (PolicyRecord.mem_attachedBy_iff.2
          (.inl ⟨hk, .inl ⟨a, cs, d, he, only ▸ List.mem_cons_self, ht, rfl⟩⟩))
      · obtain ⟨t, targets⟩ := single hk
        obtain ⟨d, only, -⟩ := shown.whole_of_invalid hr invalid hk targets
        obtain ⟨hd, ht⟩ := List.mem_filter.1 (only ▸ List.mem_singleton_self d)
        exact List.ne_nil_of_mem (PolicyRecord.mem_attachedBy_iff.2
          (.inr ⟨hk, d, hd, of_decide_eq_true ht, rfl⟩))
    · obtain ⟨c, hc⟩ := List.exists_mem_of_ne_nil _ keeps
      exact List.ne_nil_of_mem (PolicyRecord.written_mem_attachedBy hc)

/-- The policy is reported as invalid exactly if something is recorded, and all that was kept says
so. -/
theorem Shown.reportsInvalid_iff (sound : r.register.Sound)
    (single : ref.kind.reportsAsWhole = true → ∃ t, r.facts.targets = [t])
    (clear : ∀ a, tr.markOf? a ref = none) :
    (r.status ref.kind).ReportsInvalid tr.reporter.controller why ↔
      (r.facts.targets ≠ [] ∨ r.attachedKept tr.reporter.controller ref.kind ≠ []) ∧
        ∀ c ∈ r.attachedKept tr.reporter.controller ref.kind, c.SaysInvalid why := by
  have reported := shown.attachedBy_ne_nil_iff hr invalid sound single clear
  constructor
  · intro h
    refine ⟨reported.1 h.reported, fun c hc => ?_⟩
    exact StoredCondition.saysInvalid_written.1
      (h.saysInvalid _ (PolicyRecord.written_mem_attachedBy hc))
  · rintro ⟨something, kept⟩
    refine ⟨reported.2 something, fun c hc => ?_⟩
    rcases shown.saysInvalid_or_kept hr invalid sound single hc with tells | ⟨d, hd, rfl⟩
    · exact tells
    · exact StoredCondition.saysInvalid_written.2 (kept d hd)

end Invalid
end Tracker

/-- What is present under a kind is of that kind. -/
theorem kind_of_present {es : List Event} {kind : WatchedKind} {ns name : String} {o : WatchedObject}
    (h : present es kind ns name = some o) : o.kind = kind := by
  induction es using List.reverseRecOn with
  | nil => cases h
  | append_singleton es e ih =>
    rw [present_snoc] at h
    split at h
    · rename_i place
      cases e with
      | applied object =>
        cases h
        simp only [Event.place?] at place
        split at place
        · exact congrArg Prod.fst (Option.some.inj place)
        · cases place
      | deleted kind ns name => cases h
    · exact ih h

namespace Policy

/-- A policy has a target for each reference. -/
theorem targets_ne_nil_iff {p : Policy} {ns : String} : p.targets ns ≠ [] ↔ p.targetRefs ≠ [] := by
  simp only [ne_eq, List.eq_nil_iff_forall_not_mem, targets, List.mem_eraseDups, List.mem_map]
  refine not_congr ⟨?_, ?_⟩
  · exact fun none ref href => none _ ⟨ref, href, rfl⟩
  · rintro none _ ⟨ref, href, -⟩
    exact none ref href

/-- A policy of a kind that reports as a whole has one target. -/
theorem exists_targets_eq {p : Policy} (hk : p.kind.reportsAsWhole = true) (ns : String) :
    ∃ t, p.targets ns = [t] := by
  cases p with
  | trafficDistribution o => nomatch hk
  | _ => exact ⟨_, rfl⟩

end Policy

namespace Session

open Tracker (Reflects)

variable {reporter : Reporter} {es : List Event} {ps : List Pass} {s : Session} {kind : PolicyKind}
  {ns name : String} {p : Policy} {e : InvalidSpec}

/-- A policy that is present has a record, with its facts. -/
theorem Run.exists_record (run : Run reporter es ps s)
    (present : present es (.policy kind) ns name = some (.policy p)) :
    ∃ r, s.tracker.policies.get? ⟨kind, ⟨ns, name⟩⟩ = some r ∧ r.facts = p.facts ns := by
  have known := run.reflects.policies kind ns name
  rw [present, Tracker.facts, Table.get?_mapValues] at known
  exact Option.map_eq_some_iff.1 known

/-- In every run, a policy that is present with an invalid spec, and is marked on no ancestor, has a
record. What we report in its status is that it is invalid, with the text of the error, and nothing
else, exactly if there is something to report and no entry of ours that is kept as it was stored says
otherwise; there is something if the policy has a target. It wins no contest and keeps no policy of its
kind off a target. -/
theorem Run.invalid_reported_iff (run : Run reporter es ps s)
    (present : present es (.policy kind) ns name = some (.policy p)) (invalid : p.validate = .error e)
    (clear : ∀ a, s.tracker.markOf? a ⟨kind, ⟨ns, name⟩⟩ = none) :
    ∃ r, s.tracker.policies.get? ⟨kind, ⟨ns, name⟩⟩ = some r ∧
      ((r.status kind).ReportsInvalid reporter.controller e.message ↔
        (p.targetRefs ≠ [] ∨ r.attachedKept reporter.controller kind ≠ []) ∧
          ∀ c ∈ r.attachedKept reporter.controller kind, c.SaysInvalid e.message) ∧
      (∀ t, (s.tracker.contest kind t).winner ≠ some ⟨ns, name⟩) ∧
      ∀ ref facts t, ref.kind = kind →
        (t, .conflicted ⟨ns, name⟩) ∉ s.tracker.attachments ref facts := by
  obtain ⟨r, hr, facts⟩ := run.exists_record present
  have kindOf : p.kind = kind := WatchedKind.policy.inj (kind_of_present present)
  have why : r.facts.invalid = some e.message := by
    rw [facts, Policy.facts, Policy.invalid, invalid]
  have targets : r.facts.targets = p.targets ns := by rw [facts, Policy.facts]
  have single : kind.reportsAsWhole = true → ∃ t, r.facts.targets = [t] := by
    intro hk
    rw [targets]
    exact p.exists_targets_eq (kindOf ▸ hk) ns
  have reports := (run.shown hr).reportsInvalid_iff hr why (run.sound _ r hr) single clear
  rw [run.reporter_eq, targets, Policy.targets_ne_nil_iff] at reports
  exact ⟨r, hr, reports, Tracker.winner_ne_of_invalid hr why,
    fun ref facts t hk => Tracker.not_conflicted_of_invalid hr why hk facts t⟩

end Session

/-! A policy whose settings are out of range, and one without targets. -/

namespace Sample

/-- The policy with a threshold of more than a hundred percent. -/
def misconfigured (services : List String) (ancestors : List AncestorStatus) : Policy :=
  .trafficDistribution
    { metadata :=
        { (default : Metadata) with
          ns := some "ns", name := some "p", resourceVersion := some "1" }
      spec := ⟨services.map fun name => ⟨"", "Service", name⟩,
        some ⟨none, none, none, some ⟨some 101⟩⟩⟩
      status := some ⟨ancestors⟩ }

/-- What is wrong with it. -/
def outOfRange : InvalidSpec := .outOfRange "failoverConfig.failoverHealthThreshold" 0 100 101

theorem validate_misconfigured (ancestors : List AncestorStatus) :
    (misconfigured ["a"] ancestors).validate = .error outOfRange := by
  have service : LocalTargetRef.isTo ⟨"", "Service", "a"⟩ .service = true := by
    decide +kernel
  simp [misconfigured, Policy.validate, TrafficDistributionPolicySpec.validate,
    TrafficDistributionPolicySpec.validateTargets, TrafficDistributionPolicySpec.maxTargetRefs, service,
    TrafficDistributionSettings.validate, TrafficDistributionSettings.validateFailover,
    Spec.requireOneOf, Spec.requireRange, outOfRange, bind, Except.bind]

/-- The session that has seen a policy and nothing else. -/
def seeing (p : Policy) : Session := start.sees now key p

theorem run_seeing {p : Policy} (about : (Event.applied (.policy p)).IsAbout key) :
    Session.Run reporter [.applied (.policy p)]
      (start.passes now (.event (.applied (.policy p)))) (seeing p) :=
  .step (.start "h" ⟨"h", none⟩ 100) now _ (Session.step_sees about start now)

theorem unmarked_of_marks {tr : Tracker} (h : tr.marks.entries = []) (a : Target) :
    tr.markOf? a key = none := by
  have absent : tr.marks.get? a = none := by rw [Table.get?, h, List.lookup_nil]
  rw [Tracker.markOf?, Tracker.markIn?, absent, Option.bind_none]

end Sample

namespace Session

open Sample (seeing misconfigured outOfRange)

/-- The policy with the bad threshold is reported as such. -/
theorem invalid_reported_misconfigured : ∃ r,
    (seeing (misconfigured ["a"] [])).tracker.policies.get? Sample.key = some r ∧
      (r.status .trafficDistribution).ReportsInvalid Sample.ours outOfRange.message := by
  obtain ⟨r, hr, reports, -⟩ := Run.invalid_reported_iff
    (Sample.run_seeing (Event.isAbout_policy_iff.2 ⟨rfl, rfl, rfl⟩))
    (rfl : present [.applied (.policy (misconfigured ["a"] []))] (.policy .trafficDistribution) "ns" "p"
      = some (.policy (misconfigured ["a"] [])))
    (Sample.validate_misconfigured [])
    (Sample.unmarked_of_marks (by decide +kernel))
  have noneKept : ((seeing (misconfigured ["a"] [])).tracker.policies.get? Sample.key).map
      (fun r => r.attachedKept Sample.ours .trafficDistribution) = some [] := by
    decide +kernel
  obtain ⟨r', hr', kept⟩ := Option.map_eq_some_iff.1 noneKept
  obtain rfl := Option.some.inj (hr.symm.trans hr')
  have targeted : (misconfigured ["a"] []).targetRefs ≠ [] := by simp [misconfigured, Policy.targetRefs]
  exact ⟨r, hr, reports.2 ⟨.inl targeted, by simp [Sample.reporter, kept]⟩⟩

/-- Of a policy without targets nothing is reported. Of one with an odd entry of ours the odd entry is
reported too. -/
theorem not_invalid_reported :
    (∃ es ps r, Run Sample.reporter es ps (seeing (Sample.policy "1" [] [])) ∧
      present es (.policy .trafficDistribution) "ns" "p" = some (.policy (Sample.policy "1" [] [])) ∧
      (seeing (Sample.policy "1" [] [])).tracker.policies.get? Sample.key = some r ∧
      (Sample.policy "1" [] []).validate = .error (.targetRefCount 16 0) ∧
      (∀ a, (seeing (Sample.policy "1" [] [])).tracker.markOf? a Sample.key = none) ∧
      (r.status .trafficDistribution).attachedBy Sample.ours = []) ∧
    ∃ es ps r c, Run Sample.reporter es ps (seeing (misconfigured ["a"] [Sample.oddEntry "a"])) ∧
      present es (.policy .trafficDistribution) "ns" "p" =
        some (.policy (misconfigured ["a"] [Sample.oddEntry "a"])) ∧
      (seeing (misconfigured ["a"] [Sample.oddEntry "a"])).tracker.policies.get? Sample.key =
        some r ∧
      (misconfigured ["a"] [Sample.oddEntry "a"]).validate = .error outOfRange ∧
      (∀ a, (seeing (misconfigured ["a"] [Sample.oddEntry "a"])).tracker.markOf? a Sample.key =
        none) ∧
      c ∈ (r.status .trafficDistribution).attachedBy Sample.ours ∧
      ¬ c.SaysInvalid outOfRange.message := by
  have untargeted : ((seeing (Sample.policy "1" [] [])).tracker.policies.get? Sample.key).map
      (fun r => (r.status .trafficDistribution).attachedBy Sample.ours) = some [] := by
    decide +kernel
  have odd : ((seeing (misconfigured ["a"] [Sample.oddEntry "a"])).tracker.policies.get?
      Sample.key).map (fun r => ((r.status .trafficDistribution).attachedBy Sample.ours).map
        StoredCondition.status) = some ["Maybe", "False"] := by
    decide +kernel
  obtain ⟨r, hr, nothing⟩ := Option.map_eq_some_iff.1 untargeted
  obtain ⟨r', hr', statuses⟩ := Option.map_eq_some_iff.1 odd
  have first : "Maybe" ∈ ((r'.status .trafficDistribution).attachedBy Sample.ours).map
      StoredCondition.status := by
    rw [statuses]
    exact List.mem_cons_self
  obtain ⟨c, hc, status⟩ := List.mem_map.1 first
  refine ⟨⟨_, _, r, Sample.run_seeing (Event.isAbout_policy_iff.2 ⟨rfl, rfl, rfl⟩), rfl, hr, rfl,
      Sample.unmarked_of_marks (by decide +kernel), nothing⟩,
    _, _, r', c, Sample.run_seeing (Event.isAbout_policy_iff.2 ⟨rfl, rfl, rfl⟩), rfl, hr',
      Sample.validate_misconfigured _, Sample.unmarked_of_marks (by decide +kernel), hc, ?_⟩
  intro tells
  rw [tells.status] at status
  exact absurd status (by decide)

end Session
end PolicyAttachment
