import PolicyAttachment.Proofs.Register.Order
import PolicyAttachment.Proofs.Tracker.Event

/-!
# Seeing a policy again

A policy is seen again with another stored list and otherwise as it was. If the stored list is made up
of our entries as they are in the register and of others', then what is computed is what is stored
exactly if the register's order is the stored one and no ancestor waits for room that there is now:
`SeenAgain.written_eq_iff`.
-/

namespace PolicyAttachment
set_option autoImplicit false

namespace PolicyRecord

variable {kind : PolicyKind}

/-- A status is made of the entries of the register and the conditions, each in their order. -/
theorem status_eq (s : PolicyRecord) (kind : PolicyKind) :
    s.status kind =
      { ancestors :=
          if kind.reportsByAncestor then some (s.register.entries.map Entry.written) else none
        conditions :=
          if kind.reportsAsWhole then some (s.conditions.toStored.map StoredCondition.written)
          else none } := by
  simp only [status, WrittenStatus.of, Register.toStatus, List.map_map]
  rfl

theorem ancestors_status (hk : kind.reportsByAncestor = true) (s : PolicyRecord) :
    (s.status kind).ancestors = some (s.register.entries.map Entry.written) := by
  rw [status_eq, if_pos hk]

theorem conditions_status (hk : kind.reportsAsWhole = true) (s : PolicyRecord) :
    (s.status kind).conditions = some (s.conditions.toStored.map StoredCondition.written) := by
  rw [status_eq, if_pos hk]

/-- Policies for traffic distribution report per ancestor alone. -/
theorem written_trafficDistribution (hk : kind = .trafficDistribution) (s : PolicyRecord) :
    s.status kind = ⟨some (s.register.entries.map Entry.written), none⟩ := by
  rw [status_eq, hk]
  rfl

end PolicyRecord

namespace Tracker

open Entry (MadeUp arranged labels)
open Register (Proper)

/-- The tracker once a policy is seen, before any pass. -/
def sighted (tr : Tracker) (ref : PolicyKey) (facts : PolicyFacts) : Tracker :=
  { tr with policies := tr.policies.insert ref (tr.sighting ref facts).2 }

/-- A known policy is seen again as it was, but for its version and the stored list `l`, which is made
up of our entries in its register and of others'. -/
structure SeenAgain (tr : Tracker) (ref : PolicyKey) (old : PolicyRecord) (facts : PolicyFacts)
    (l : List AncestorStatus) : Prop where
  known : tr.policies.get? ref = some old
  shown : Shown tr ref old
  proper : old.register.Proper
  ancestors : facts.storedAncestors = ⟨l⟩
  targets : facts.targets = old.facts.targets
  created : facts.created = old.facts.created
  generation : facts.generation = old.facts.generation
  invalid : facts.invalid = old.facts.invalid
  fit : Registrable l
  made : MadeUp tr.reporter.controller old.register.entries l

variable {tr : Tracker} {ref : PolicyKey} {old : PolicyRecord} {facts : PolicyFacts}
  {l : List AncestorStatus}

/-- A policy that stands as before changes no contest. -/
theorem contenders_insert {new : PolicyRecord} (hold : tr.policies.get? ref = some old)
    (same : new.facts.standing = old.facts.standing) (kind : PolicyKind) (target : Target) :
    { tr with policies := tr.policies.insert ref new }.contenders kind target =
      tr.contenders kind target := by
  rw [contenders_eq, contenders_eq, standings, standings,
    Table.mapValues_insert_of_same (fun _ s => s.facts.standing) hold same]

/-- A policy that is seen again with the same standing has the same outcomes on its targets. -/
theorem attachments_sighted (known : tr.policies.get? ref = some old)
    (standing : facts.standing = old.facts.standing) :
    (tr.sighted ref facts).attachments ref facts = tr.attachments ref old.facts := by
  have same : (tr.sighting ref facts).2.facts.standing = old.facts.standing := by
    rw [facts_sighting, standing]
  exact attachments_congr (congrArg Prod.fst standing) (contenders_insert known same ref.kind)
    fun _ _ => rfl

/-- A policy that is seen again as it was reports under the same ancestors. -/
theorem ancestry_sighted (known : tr.policies.get? ref = some old)
    (standing : facts.standing = old.facts.standing) :
    (tr.sighted ref facts).ancestry ref facts = tr.ancestry ref old.facts := by
  rw [ancestry, ancestry, attachments_sighted known standing]
  rfl

section Known

variable (known : tr.policies.get? ref = some old)
include known

theorem sighting_of_known :
    tr.sighting ref facts = old.seen tr.reporter.controller ref.kind facts := by
  simp only [sighting, known]

theorem register_sighting : (tr.sighting ref facts).2.register =
    (old.register.takeOver tr.reporter.controller facts.storedAncestors).2 := by
  rw [sighting_of_known known]
  rfl

variable (sound : old.register.Sound)
include sound

theorem sound_sighting : (tr.sighting ref facts).2.register.Sound := by
  rw [register_sighting known]
  exact Register.sound_takeOver sound _ _

/-- Our entries are the ones from before. -/
theorem known_mem_sighting_iff {a : AncestorRef} {cs : ConditionSet} :
    .known ⟨a, tr.reporter.controller⟩ cs ∈ (tr.sighting ref facts).2.register.entries ↔
      .known ⟨a, tr.reporter.controller⟩ cs ∈ old.register.entries := by
  rw [register_sighting known]
  exact Entry.known_mem_iff_of_own (sound.own_takeOver _ _)

/-- What is seen of others does not touch our entries. -/
theorem mem_ancestorsOf_sighting_iff {a : AncestorRef} :
    a ∈ (tr.sighting ref facts).2.register.ancestorsOf tr.reporter.controller ↔
      a ∈ old.register.ancestorsOf tr.reporter.controller := by
  rw [Register.mem_ancestorsOf_iff, Register.mem_ancestorsOf_iff]
  exact exists_congr fun cs => known_mem_sighting_iff known sound

end Known

namespace SeenAgain

variable (h : SeenAgain tr ref old facts l)
include h

theorem sighting_eq : tr.sighting ref facts = old.seen tr.reporter.controller ref.kind facts :=
  sighting_of_known h.known

theorem register_sighting : (tr.sighting ref facts).2.register =
    (old.register.takeOver tr.reporter.controller ⟨l⟩).2 := by
  rw [Tracker.register_sighting h.known, h.ancestors]

/-- What was seen again stands in its contests as before. -/
theorem standing_eq : facts.standing = old.facts.standing := by
  rw [PolicyFacts.standing, h.targets, h.created, h.invalid, PolicyFacts.standing]

/-- An ancestor that is marked has no entry of ours. -/
theorem not_listed (hk : ref.kind.reportsByAncestor = true) {a : Target}
    (marked : tr.markOf? a ref ≠ none) :
    a.ancestorRef ∉ old.register.ancestorsOf tr.reporter.controller := by
  intro listed
  obtain ⟨e, -, unmarked, heq⟩ := (h.shown.ancestors hk _).1 listed
  rw [Target.ancestorRef_inj.1 heq] at unmarked
  exact marked unmarked

/-- The review that follows. -/
theorem reviewed (now : Instant) (hk : ref.kind.reportsByAncestor = true) :
    Review.Reviewed tr.reporter.controller (AncestryEntry.condition old.facts.generation now)
      (tr.ancestry ref old.facts) (tr.sighting ref facts).2.register
      ((tr.sighted ref facts).review now ref (tr.sighting ref facts).2).state.register
      (((tr.sighted ref facts).review now ref (tr.sighting ref facts).2).blocked.map Prod.fst) := by
  have sound : (tr.sighting ref facts).2.register.Sound := sound_sighting h.known h.proper.sound
  have reviewed := reviewed_review (tr.sighted ref facts) now sound hk
  rwa [facts_sighting, ancestry_sighted h.known h.standing_eq, h.generation] at reviewed

/-- If no ancestor is marked, or there is no room for any, then the review changes nothing. -/
theorem review_register (now : Instant) (hk : ref.kind.reportsByAncestor = true)
    (settled : (∀ a, tr.markOf? a ref = none) ∨ l.length = maxAncestors) :
    ((tr.sighted ref facts).review now ref (tr.sighting ref facts).2).state.register =
      (tr.sighting ref facts).2.register := by
  have size : (tr.sighting ref facts).2.register.size = l.length := by
    rw [h.register_sighting]
    exact (h.proper.takeOver_of_madeUp h.fit h.made).2.1
  have unfolded :
      ((tr.sighted ref facts).review now ref (tr.sighting ref facts).2).state.register =
        (Review.recordAll tr.reporter ref old.facts.generation now
          (tr.sighting ref facts).2.register (tr.ancestry ref old.facts)).1 := by
    rw [← ancestry_sighted h.known h.standing_eq, ← h.generation]
    simp only [review, hk, if_true, facts_sighting]
    rfl
  rw [unfolded]
  apply Review.recordAll_of_settled (sound_sighting h.known h.proper.sound)
  · intro e he
    cases hm : tr.markOf? e.ancestor ref with
    | none =>
      obtain ⟨cs, hcs, only⟩ := h.shown.reports hk e he hm
      have recorded := h.proper.sound.get?_eq_some_iff.1 hcs
      exact .inl ⟨cs, (known_mem_sighting_iff h.known h.proper.sound).2 recorded, only now⟩
    | some c =>
      have marked : tr.markOf? e.ancestor ref ≠ none := by simp [hm]
      refine .inr ⟨?_, size.trans (settled.resolve_left fun unmarked => marked (unmarked _))⟩
      intro cs recorded
      have before := (known_mem_sighting_iff h.known h.proper.sound).1 recorded
      exact h.not_listed hk marked (Register.mem_ancestorsOf_iff.2 ⟨cs, before⟩)
  · intro a ha
    have before := (mem_ancestorsOf_sighting_iff h.known h.proper.sound).1 ha
    obtain ⟨e, he, -, heq⟩ := (h.shown.ancestors hk a).1 before
    exact ⟨e, he, heq⟩

/-- A register that is written as the stored list has no more entries of ours than before. -/
theorem ancestorsOf_subset_of_written {r : Register}
    (same : r.entries.map Entry.written = l.map AncestorStatus.written) :
    r.ancestorsOf tr.reporter.controller ⊆ old.register.ancestorsOf tr.reporter.controller := by
  intro a ha
  obtain ⟨cs, recorded⟩ := Register.mem_ancestorsOf_iff.1 ha
  have written : (Entry.known ⟨a, tr.reporter.controller⟩ cs).written ∈
      l.map AncestorStatus.written := by
    rw [← same]
    exact List.mem_map_of_mem recorded
  obtain ⟨b, hb, heq⟩ := List.mem_map.1 written
  have writer : b.controllerName = tr.reporter.controller.text :=
    congrArg AncestorStatus.controllerName heq
  have label := h.made.label_mem h.proper.faithful hb writer
  rw [Entry.label_of_written (Entry.faithful_known _ cs) heq] at label
  obtain ⟨f, hf, hl⟩ := List.mem_map.1 label
  obtain ⟨cs', rfl⟩ := Entry.key?_eq_some_iff.1 (Entry.key?_of_label hl)
  exact Register.mem_ancestorsOf_iff.2 ⟨cs', hf⟩

/-- If a marked ancestor had room, then the review adds an entry. -/
theorem settled_of_written (now : Instant) (hk : ref.kind.reportsByAncestor = true)
    (same : ((tr.sighted ref facts).review now ref
        (tr.sighting ref facts).2).state.register.entries.map Entry.written =
      l.map AncestorStatus.written) :
    (∀ a, tr.markOf? a ref = none) ∨ l.length = maxAncestors := by
  have reviewed := h.reviewed now hk
  generalize ((tr.sighted ref facts).review now ref (tr.sighting ref facts).2).state.register =
    r at reviewed same
  have size : r.size = l.length := by simpa [Register.size] using congrArg List.length same
  by_cases unmarked : ∀ a, tr.markOf? a ref = none
  · exact .inl unmarked
  right
  obtain ⟨a, marked⟩ := not_forall.1 unmarked
  obtain ⟨e, he, rfl⟩ := List.mem_map.1 (h.shown.marked hk a (Option.ne_none_iff_isSome.1 marked))
  -- an entry for the ancestor would have to be stored
  have left : e.ancestor ∈
      ((tr.sighted ref facts).review now ref (tr.sighting ref facts).2).blocked.map Prod.fst := by
    by_contra notLeft
    have recorded := (reviewed.mem_ancestorsOf _).2 ⟨e, he, notLeft, rfl⟩
    exact h.not_listed hk marked (h.ancestorsOf_subset_of_written same recorded)
  have full := reviewed.full (List.ne_nil_of_mem left)
  have noneWithdrawn : ((tr.sighting ref facts).2.register.ancestorsOf
      tr.reporter.controller).filter (fun a => a ∉ r.ancestorsOf tr.reporter.controller) = [] := by
    rw [List.filter_eq_nil_iff]
    intro b hb
    have before := (mem_ancestorsOf_sighting_iff h.known h.proper.sound).1 hb
    obtain ⟨d, hd, -, rfl⟩ := (h.shown.ancestors hk b).1 before
    simpa using reviewed.keeps d hd hb
  rw [noneWithdrawn, List.length_nil, size] at full
  exact full

/-- What is computed is what is stored exactly if the register's order is the stored one, and either no
ancestor is marked or the stored list is full. -/
theorem written_eq_iff (now : Instant) (hk : ref.kind.reportsByAncestor = true) :
    ((tr.sighted ref facts).review now ref
        (tr.sighting ref facts).2).state.register.entries.map Entry.written =
      l.map AncestorStatus.written ↔
      arranged old.register.entries l = labels l ∧
        ((∀ a, tr.markOf? a ref = none) ∨ l.length = maxAncestors) := by
  obtain ⟨order, -, stored⟩ := h.proper.takeOver_of_madeUp h.fit h.made
  have proper := h.proper.takeOver h.fit tr.reporter.controller
  have orderMatters := proper.map_written_eq_iff h.fit stored
  rw [order, ← h.register_sighting] at orderMatters
  constructor
  · intro same
    have settled := h.settled_of_written now hk same
    rw [h.review_register now hk settled] at same
    exact ⟨orderMatters.1 same, settled⟩
  · rintro ⟨same, settled⟩
    rw [h.review_register now hk settled]
    exact orderMatters.2 same

/-- A status for a version that nothing is pending for is not due exactly if it is what is stored. -/
theorem due?_eq_none_iff (now : Instant) (hk : ref.kind = .trafficDistribution)
    (notPending : ∀ status, old.pending ≠ some (facts.resourceVersion, status)) :
    due? false ref ((tr.sighted ref facts).review now ref (tr.sighting ref facts).2).state = none ↔
      ((tr.sighted ref facts).review now ref
        (tr.sighting ref facts).2).state.register.entries.map Entry.written =
      l.map AncestorStatus.written := by
  have stored : ((tr.sighted ref facts).review now ref (tr.sighting ref facts).2).state.stored =
      ⟨some (l.map AncestorStatus.written), none⟩ := by
    simp [review, h.sighting_eq, PolicyRecord.seen, WrittenStatus.of, hk,
      PolicyKind.reportsByAncestor, PolicyKind.reportsAsWhole, h.ancestors]
  have pending : ((tr.sighted ref facts).review now ref (tr.sighting ref facts).2).state.pending =
      old.pending := by
    simp [review, h.sighting_eq, PolicyRecord.seen]
  have hfacts : ((tr.sighted ref facts).review now ref (tr.sighting ref facts).2).state.facts =
      facts := by
    rw [facts_review, facts_sighting]
  simp only [due?, PolicyRecord.written_trafficDistribution hk, stored, pending, hfacts,
    WrittenStatus.mk.injEq, Option.some.injEq, and_true]
  constructor
  · intro notDue
    by_contra differs
    simp [differs, notPending] at notDue
  · intro same
    rw [if_pos same]

end SeenAgain

/-- A leading instance whose queue has room sends a status of a policy that changed exactly if one is
due after the review. -/
theorem statusesOf_putPolicy_eq_nil_iff {m : Moment} (changed : (tr.sighting ref facts).1 = true)
    (empty : tr.queue.waiting = []) (leads : m.leads = true) (isOpen : tr.queue.isOpen = true)
    (room : (tr.putPolicy m ref facts).queue.overflowed = tr.queue.overflowed) :
    statusesOf ref (tr.putPolicy m ref facts).queue.waiting = [] ↔
      due? false ref ((tr.sighted ref facts).review m.now ref (tr.sighting ref facts).2).state =
        none := by
  have unfolded : tr.putPolicy m ref facts =
      ((tr.sighted ref facts).passOver m false ref.kind).syncFlags m false := by
    rw [putPolicy_eq, if_pos changed]
    rfl
  have passed := passed_passOver m false (tr.sighted ref facts) ref.kind
  have sendsFlags := sendsFlags_syncFlags m false ((tr.sighted ref facts).passOver m false ref.kind)
  have known : (tr.sighted ref facts).policies.get? ref = some (tr.sighting ref facts).2 := by
    simp only [sighted, Table.get?_insert, if_true]
  rw [unfolded] at room ⊢
  rw [sendsFlags.statusesOf_waiting]
  apply passed.sendsNothing_iff known empty leads isOpen
  obtain ⟨offered, -, sends, -⟩ := sendsFlags
  obtain ⟨due, takes, -⟩ := passed.queue
  have before : tr.queue.overflowed ≤ _ := takes.dropped
  have after := sends.queue.dropped
  exact Nat.le_antisymm (room ▸ after) before

end Tracker
end PolicyAttachment
