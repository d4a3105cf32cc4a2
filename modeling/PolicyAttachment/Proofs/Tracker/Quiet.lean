import PolicyAttachment.Proofs.Register.Echo
import PolicyAttachment.Proofs.Tracker.Channel
import PolicyAttachment.Proofs.Tracker.View

/-!
# Policies that are sent nothing

A policy whose status is stored as it is computed, at whatever time, is `Quiet`: no pass offers anything
for it, and it stays quiet for as long as the same objects are there. A policy becomes quiet when it is
seen again as it is shown and with the status that was written for it: `quiet_sighted`.
-/

namespace PolicyAttachment
set_option autoImplicit false

namespace Tracker

section Settled

variable {tr : Tracker} {ref : PolicyKey} {s old : PolicyRecord} {facts : PolicyFacts}

/-- Our condition on a policy as a whole is among its conditions. -/
theorem Shown.exists_attached (h : Shown tr ref s) (hk : ref.kind.reportsAsWhole = true) :
    ∃ c ∈ s.conditions.conditions, c.type = attachedType ∧ ∀ now, c.SaysSame
      (Attachment.overall (tr.attachments ref s.facts) s.facts.generation now) := by
  obtain ⟨c, only, same⟩ := h.overall hk
  have hc : c ∈ s.conditions.conditions.filter fun d => d.type = attachedType := by
    rw [only]
    exact List.mem_singleton_self c
  obtain ⟨hmem, htype⟩ := List.mem_filter.1 hc
  exact ⟨c, hmem, of_decide_eq_true htype, same⟩

/-- If all that has to be shown is shown, computing it anew changes nothing. -/
theorem Shown.review_state (h : Shown tr ref s) (sound : s.register.Sound)
    (unmarked : ∀ a, tr.markOf? a ref = none) (now : Instant) : (tr.review now ref s).state = s := by
  have register : ref.kind.reportsByAncestor = true →
      (Review.recordAll tr.reporter ref s.facts.generation now s.register
        (tr.ancestry ref s.facts)).1 = s.register := by
    intro hk
    apply Review.recordAll_of_settled sound
    · intro e he
      obtain ⟨cs, hcs, only⟩ := h.reports hk e he (unmarked _)
      exact .inl ⟨cs, sound.get?_eq_some_iff.1 hcs, only now⟩
    · intro a ha
      obtain ⟨e, he, -, heq⟩ := (h.ancestors hk a).1 ha
      exact ⟨e, he, heq⟩
  have conditions : ref.kind.reportsAsWhole = true →
      (s.conditions.withAttached (Attachment.overall (tr.attachments ref s.facts)
        s.facts.generation now)).inheritTimes s.conditions = s.conditions := by
    intro hk
    obtain ⟨c, hc, -, same⟩ := h.exists_attached hk
    exact ConditionSet.inheritTimes_withAttached_of_saysSame hc (same now)
  unfold ancestry at register
  unfold review
  cases byAncestor : ref.kind.reportsByAncestor <;> cases asWhole : ref.kind.reportsAsWhole <;>
    simp [byAncestor, asWhole, register, conditions]

/-- What is shown for a policy is shown as well when the policy is seen again with the same standing,
if our condition stays as it was. -/
theorem Shown.sighted (h : Shown tr ref old) (known : tr.policies.get? ref = some old)
    (sound : old.register.Sound) (standing : facts.standing = old.facts.standing)
    (generation : facts.generation = old.facts.generation)
    (attached : ref.kind.reportsAsWhole = true → ∀ c, old.conditions.get? attachedType = some c →
      c ∈ (tr.sighting ref facts).2.conditions.conditions) :
    Shown (tr.sighted ref facts) ref (tr.sighting ref facts).2 := by
  have sound' : (tr.sighting ref facts).2.register.Sound := sound_sighting known sound
  have ancestry : (tr.sighted ref facts).ancestry ref (tr.sighting ref facts).2.facts =
      tr.ancestry ref old.facts := by
    rw [facts_sighting]
    exact ancestry_sighted known standing
  constructor
  · exact fun _ => sound'.nodup_ancestorsOf _
  · intro hk a
    rw [ancestry]
    exact (mem_ancestorsOf_sighting_iff known sound).trans (h.ancestors hk a)
  · intro hk e he unmarked
    rw [ancestry] at he
    obtain ⟨cs, hcs, only⟩ := h.reports hk e he unmarked
    have recorded : .known (e.key tr.reporter.controller) cs ∈
        (tr.sighting ref facts).2.register.entries :=
      (known_mem_sighting_iff known sound).2 (sound.get?_eq_some_iff.1 hcs)
    refine ⟨cs, sound'.get?_eq_some_iff.2 recorded, ?_⟩
    rw [facts_sighting, generation]
    exact only
  · intro hk a marked
    rw [ancestry]
    exact h.marked hk a marked
  · intro hk
    obtain ⟨c, hc, htype, same⟩ := h.exists_attached hk
    have kept := attached hk c (ConditionSet.get?_eq_some_iff.2 ⟨hc, htype⟩)
    refine ⟨c, ?_, ?_⟩
    · rw [← htype]
      exact ConditionSet.filter_type kept
    · rw [facts_sighting, attachments_sighted known standing, generation]
      exact same

end Settled

/-- `s` is the record of a policy, and its status is stored as it is computed, whatever the time. -/
structure Rests (tr : Tracker) (ref : PolicyKey) (s : PolicyRecord) : Prop where
  known : tr.policies.get? ref = some s
  stored : s.status ref.kind = s.stored
  review : ∀ now, (tr.review now ref s).state.atRest = s.atRest

/-- A policy that is there and has nothing to be sent. -/
def Quiet (ref : PolicyKey) (tr : Tracker) : Prop := ∃ s, tr.Rests ref s

section Quiet

open Channel (Relays)

variable {tr tr' : Tracker} {ref : PolicyKey} {s s' old : PolicyRecord} {facts : PolicyFacts}

theorem status_of_atRest (h : s'.atRest = s.atRest) (kind : PolicyKind) :
    s'.status kind = s.status kind :=
  congrArg (fun s => s.status kind) h

theorem stored_of_atRest (h : s'.atRest = s.atRest) : s'.stored = s.stored :=
  congrArg (fun s => s.stored) h

/-- Whatever else changes, a record rests while the same objects are there. -/
theorem Rests.sameObjects (h : tr.Rests ref s) (same : SameObjects tr tr')
    (known : tr'.policies.get? ref = some s') (rest : s'.atRest = s.atRest) : tr'.Rests ref s' where
  known := known
  stored := by rw [status_of_atRest rest, stored_of_atRest rest, h.stored]
  review now := by
    rw [(review_congr (congrArg Reporter.controller same.reporter) same.facts same.targets
      same.routes rest now ref).1, h.review, rest]

/-- Nothing is due for a record that rests. -/
theorem Rests.due?_eq_none (h : tr.Rests ref s) (retry : Bool) (now : Instant) :
    due? retry ref (tr.review now ref s).state = none := by
  have rest := h.review now
  rw [due?, status_of_atRest rest, stored_of_atRest rest, if_pos h.stored]

/-- Nothing is due to a policy at rest. -/
theorem Rests.dueFor_eq_nil (h : tr.Rests ref s) (m : Moment) (retry : Bool) (kind : PolicyKind) :
    tr.dueFor m retry kind ref = [] := by
  rw [dueFor, h.known, Option.bind_some, h.due?_eq_none, Option.toList_none, List.map_nil, ite_self]

/-- `tr'` came from `tr` without anything being offered for a policy that is quiet. -/
structure Calm (leads : Bool) (ref : PolicyKey) (tr tr' : Tracker) : Prop where
  nothing : Relays (.status ref) leads [] tr tr'
  quiet : Quiet ref tr'

/-- None of its statuses came into the queue. -/
theorem Calm.statusesOf_eq_nil {leads : Bool} (h : Calm leads ref tr tr') :
    statusesOf ref (tr'.queue.waiting.drop tr.queue.waiting.length) = [] :=
  List.sublist_nil.1 h.nothing.enqueued.1

theorem Calm.trans {leads : Bool} {tr'' : Tracker} (h : Calm leads ref tr tr')
    (h' : Calm leads ref tr' tr'') : Calm leads ref tr tr'' :=
  ⟨h.nothing.append h'.nothing, h'.quiet⟩

/-- A pass leaves a quiet policy quiet. -/
theorem Quiet.passOver (h : Quiet ref tr) (m : Moment) (retry : Bool) (kind : PolicyKind) :
    Calm m.leads ref tr (tr.passOver m retry kind) := by
  obtain ⟨s, rests⟩ := h
  have passed := passed_passOver m retry tr kind
  have nothing := relays_status_passOver m retry tr kind ref
  rw [rests.dueFor_eq_nil] at nothing
  refine ⟨nothing, ?_⟩
  by_cases hk : ref.kind = kind
  · obtain ⟨pending, known⟩ := passed.reviewed rests.known hk
    exact ⟨_, rests.sameObjects (sameObjects_passOver m retry tr kind) known (rests.review m.now)⟩
  · obtain ⟨pending, known⟩ := passed.passedBy rests.known hk
    exact ⟨_, rests.sameObjects (sameObjects_passOver m retry tr kind) known rfl⟩

theorem Quiet.syncFlags (h : Quiet ref tr) (m : Moment) (force : Bool) :
    Calm m.leads ref tr (tr.syncFlags m force) := by
  obtain ⟨s, rests⟩ := h
  obtain ⟨offered, -, -, policies⟩ := sendsFlags_syncFlags m force tr
  refine ⟨relays_status_syncFlags m force tr ref, s, ?_⟩
  exact rests.sameObjects (sameObjects_syncFlags m force tr) (policies ▸ rests.known) rfl

theorem Quiet.foldl_passOver (h : Quiet ref tr) (m : Moment) (retry : Bool)
    (kinds : List PolicyKind) :
    Calm m.leads ref tr (kinds.foldl (Tracker.passOver m retry) tr) := by
  induction kinds generalizing tr with
  | nil => exact ⟨.refl _ _ tr, h⟩
  | cons kind kinds ih =>
    have first := h.passOver m retry kind
    exact first.trans (ih first.quiet)

theorem Quiet.pass (h : Quiet ref tr) (m : Moment) (kinds : List PolicyKind) :
    Calm m.leads ref tr (tr.pass m kinds) := by
  unfold Tracker.pass
  split
  · exact ⟨.refl _ _ tr, h⟩
  · have passes := h.foldl_passOver m false kinds
    exact passes.trans (passes.quiet.syncFlags m false)

theorem Quiet.fullPass (h : Quiet ref tr) (m : Moment) (leaseChanged : Bool) :
    Calm m.leads ref tr (tr.fullPass m leaseChanged) := by
  have passes := h.foldl_passOver m true PolicyKind.all
  exact passes.trans (passes.quiet.syncFlags m leaseChanged)

theorem Quiet.withQueue (h : Quiet ref tr) (queue : Queue) : Quiet ref { tr with queue } := by
  obtain ⟨s, rests⟩ := h
  exact ⟨s, rests.sameObjects ⟨rfl, rfl, rfl, rfl⟩ rests.known rfl⟩

/-- A sighting that makes a policy quiet leads to nothing being offered for it. -/
theorem Quiet.putPolicy (h : Quiet ref (tr.sighted ref facts)) (m : Moment) :
    Calm m.leads ref (tr.sighted ref facts) (tr.putPolicy m ref facts) := by
  rw [putPolicy_eq]
  split
  · exact h.pass m [ref.kind]
  · exact ⟨.refl _ _ _, h⟩

/-- The facts are those of the policy as it is recorded, but for the version, with the status stored
that was computed. -/
structure IsEcho (kind : PolicyKind) (old : PolicyRecord) (facts : PolicyFacts) : Prop where
  standing : facts.standing = old.facts.standing
  generation : facts.generation = old.facts.generation
  ancestors : facts.storedAncestors = ⟨(old.status kind).ancestors.getD []⟩
  conditions : facts.storedConditions = (old.status kind).conditions.getD []

namespace IsEcho

variable {ours : ControllerName} {kind : PolicyKind}

/-- After an echo the stored status is the computed one. -/
theorem stored_seen (h : IsEcho kind old facts) :
    (old.seen ours kind facts).2.stored = old.status kind := by
  have stored : (old.seen ours kind facts).2.stored =
      .of kind facts.storedAncestors facts.storedConditions := rfl
  rw [stored, h.ancestors, h.conditions, old.status_eq, WrittenStatus.of, WrittenStatus.mk.injEq]
  constructor
  · split
    · exact congrArg some (Entry.map_written_written _)
    · rfl
  · split
    · exact congrArg some (StoredCondition.map_written_written _)
    · rfl

/-- After an echo the conditions are merged with themselves. -/
theorem conditions_seen (h : IsEcho kind old facts) (hk : kind.reportsAsWhole = true) :
    (old.seen ours kind facts).2.conditions =
      old.conditions.merge (old.conditions.toStored.map StoredCondition.written) := by
  have conditions : (old.seen ours kind facts).2.conditions =
      old.conditions.merge facts.storedConditions := rfl
  rw [conditions, h.conditions, old.conditions_status hk, Option.getD_some]

/-- The status is computed as it was. -/
theorem status_seen (h : IsEcho kind old facts) (resumable : old.register.Resumable)
    (apart : old.register.ForeignApart ours) :
    (old.seen ours kind facts).2.status kind = old.status kind := by
  rw [PolicyRecord.status_eq, old.status_eq, WrittenStatus.mk.injEq]
  constructor
  · cases hk : kind.reportsByAncestor with
    | false => rfl
    | true =>
      have register : (old.seen ours kind facts).2.register =
          (old.register.takeOver ours facts.storedAncestors).2 := rfl
      rw [if_pos rfl, if_pos rfl, register, h.ancestors, old.ancestors_status hk, Option.getD_some,
        (resumable.takeOver_written apart).2]
  · cases hk : kind.reportsAsWhole with
    | false => rfl
    | true =>
      rw [if_pos rfl, if_pos rfl, h.conditions_seen hk, old.conditions.toStored_merge_written.1]

end IsEcho

/-- A policy without marks that is shown is quiet once it is seen with the status that was written for
it. -/
theorem Shown.quiet_sighted (h : Shown tr ref old) (known : tr.policies.get? ref = some old)
    (resumable : old.register.Resumable) (unmarked : ∀ a, tr.markOf? a ref = none)
    (apart : old.register.ForeignApart tr.reporter.controller)
    (echo : IsEcho ref.kind old facts) : Quiet ref (tr.sighted ref facts) := by
  have seen : tr.sighting ref facts = old.seen tr.reporter.controller ref.kind facts :=
    sighting_of_known known
  have shown : Shown (tr.sighted ref facts) ref (tr.sighting ref facts).2 := by
    apply h.sighted known resumable.sound echo.standing echo.generation
    intro hk c hc
    rw [seen, echo.conditions_seen hk]
    exact old.conditions.toStored_merge_written.2 c hc
  refine ⟨(tr.sighting ref facts).2, ?_, ?_, fun now => ?_⟩
  · simp only [Tracker.sighted, Table.get?_insert, if_true]
  · rw [seen, echo.status_seen resumable apart, echo.stored_seen]
  · rw [shown.review_state (sound_sighting known resumable.sound) unmarked]

end Quiet

end Tracker
end PolicyAttachment
