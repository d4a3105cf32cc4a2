import PolicyAttachment.Proofs.Tracker.Pass

/-!
# What a policy's state shows

The state of a policy has to show the outcomes on its targets as they follow from the objects that
are there: `Shown`. A pass over a kind establishes this for every policy of the kind. It stays true
for as long as the tracker agrees with the outcome of the pass on everything the kind depends on,
which is `Agree`.
-/

namespace PolicyAttachment
set_option autoImplicit false

namespace ConditionSet

theorem mem_of_insert {s s' : ConditionSet} {c : Condition} {overflow : OverflowRule}
    (h : s.insert c overflow = .ok s') : c ∈ s'.conditions := by
  have heq := s.insert_eq c overflow
  rw [h] at heq
  split at heq
  · rename_i present
    obtain ⟨d, hd, ht⟩ := List.mem_map.1 present
    rw [Except.ok.inj heq]
    exact List.mem_map.2 ⟨d, hd, by simp [ht]⟩
  · split at heq
    · rw [Except.ok.inj heq]
      simp
    · split at heq
      · rw [Except.ok.inj heq]
        simp
      · cases heq

/-- Our condition always finds a place. -/
theorem mem_withAttached (s : ConditionSet) (c : Condition) : c ∈ (s.withAttached c).conditions := by
  unfold withAttached
  cases hr : s.insert c .reject with
  | ok s' => exact mem_of_insert hr
  | error x =>
    simp only
    cases hd : s.insert c .displaceOldest with
    | ok s' => exact mem_of_insert hd
    | error y =>
      have reject := s.insert_eq c .reject
      have displace := s.insert_eq c .displaceOldest
      rw [hr] at reject
      rw [hd] at displace
      split at displace
      · cases displace
      · split at displace
        · cases displace
        · rename_i full
          have nonempty : s.conditions ≠ [] := by
            intro hnil
            simp [size, hnil, maxConditions] at full
          obtain ⟨d, oldest⟩ := Condition.exists_oldest? nonempty
          rw [oldest] at displace
          cases displace

end ConditionSet

theorem Attachment.type_overall (attachments : List (Target × Attachment)) (generation : Option Int)
    (now : Instant) : (overall attachments generation now).type = attachedType := by
  match attachments with
  | [] => rfl
  | [_] => rfl
  | _ :: _ :: _ =>
    simp only [overall]
    split <;> rfl

namespace Tracker

/-- The facts about the policies that are there. -/
def facts (tr : Tracker) : Table PolicyKey PolicyFacts := tr.policies.mapValues fun _ s => s.facts

/-- The registers are sound. -/
def Sound (tr : Tracker) : Prop := ∀ ref s, tr.policies.get? ref = some s → s.register.Sound

/-- The ancestors that a policy reports under, with the target and the outcome for each. -/
def ancestry (tr : Tracker) (ref : PolicyKey) (facts : PolicyFacts) : List AncestryEntry :=
  AncestryEntry.ofAttachments tr.routes.values (tr.attachments ref facts)

/-- Where a policy of its kind reports, the state of the policy shows the outcomes on its targets:
per ancestor one entry of ours with that condition and no other, except for the ancestors that are
marked as not recorded, and as a whole one condition called `Attached`. No other ancestor is marked.
-/
structure Shown (tr : Tracker) (ref : PolicyKey) (s : PolicyRecord) : Prop where
  nodup : ref.kind.reportsByAncestor = true → (s.register.ancestorsOf tr.reporter.controller).Nodup
  ancestors : ref.kind.reportsByAncestor = true → ∀ a,
    a ∈ s.register.ancestorsOf tr.reporter.controller ↔
      ∃ e ∈ tr.ancestry ref s.facts, tr.markOf? e.ancestor ref = none ∧ e.ancestor.ancestorRef = a
  reports : ref.kind.reportsByAncestor = true → ∀ e ∈ tr.ancestry ref s.facts,
    tr.markOf? e.ancestor ref = none →
      ∃ cs, s.register.get? (e.key tr.reporter.controller) = some cs ∧
        ∀ now, cs.SaysOnly (e.condition s.facts.generation now)
  marked : ref.kind.reportsByAncestor = true → ∀ a, (tr.markOf? a ref).isSome →
    a ∈ (tr.ancestry ref s.facts).map AncestryEntry.ancestor
  overall : ref.kind.reportsAsWhole = true →
    ∃ c, (s.conditions.conditions.filter fun d => d.type = attachedType) = [c] ∧
      ∀ now, c.SaysSame (Attachment.overall (tr.attachments ref s.facts) s.facts.generation now)

section Reviewing

variable {tr tr' : Tracker} {ref : PolicyKey} {s : PolicyRecord} {now : Instant}

theorem facts_review (tr : Tracker) (now : Instant) (ref : PolicyKey) (s : PolicyRecord) :
    (tr.review now ref s).state.facts = s.facts := rfl

theorem facts_reviewIn (tr : Tracker) (now : Instant) (kind : PolicyKind) (ref : PolicyKey)
    (s : PolicyRecord) : (tr.reviewIn now kind ref s).state.facts = s.facts := by
  unfold reviewIn
  split <;> rfl

/-- A policy of a kind that reports per ancestor has its ancestry recorded. -/
theorem reviewed_review (tr : Tracker) (now : Instant) (h : s.register.Sound)
    (hk : ref.kind.reportsByAncestor = true) :
    Review.Reviewed tr.reporter.controller (AncestryEntry.condition s.facts.generation now)
      (tr.ancestry ref s.facts) s.register (tr.review now ref s).state.register
      ((tr.review now ref s).blocked.map Prod.fst) := by
  have reviewed := Review.reviewed_recordAll tr.reporter ref s.facts.generation now h
    (AncestryEntry.nodup_ofAttachments tr.routes.values (tr.attachments ref s.facts))
  simp only [review, hk, if_true]
  exact reviewed

/-- A kind that does not report per ancestor leaves the register alone. -/
theorem review_of_not_reportsByAncestor (hk : ref.kind.reportsByAncestor = false) :
    (tr.review now ref s).state.register = s.register ∧ (tr.review now ref s).blocked = [] := by
  simp [review, hk]

/-- A review keeps the register sound. -/
theorem sound_review (h : s.register.Sound) : (tr.review now ref s).state.register.Sound := by
  cases hk : ref.kind.reportsByAncestor with
  | true => exact (reviewed_review tr now h hk).sound
  | false =>
    rw [(review_of_not_reportsByAncestor hk).1]
    exact h

/-- A policy of a kind that reports as a whole has the outcome as its one condition of ours. -/
theorem overall_review (tr : Tracker) (now : Instant) (s : PolicyRecord)
    (hk : ref.kind.reportsAsWhole = true) :
    ∃ c, ((tr.review now ref s).state.conditions.conditions.filter fun d => d.type = attachedType) =
        [c] ∧
      c.SaysSame (Attachment.overall (tr.attachments ref s.facts) s.facts.generation now) := by
  let attached := Attachment.overall (tr.attachments ref s.facts) s.facts.generation now
  have hconditions : (tr.review now ref s).state.conditions =
      (s.conditions.withAttached attached).inheritTimes s.conditions := by
    simp [review, hk, attached]
  obtain ⟨f, same, conditions⟩ :=
    ConditionSet.exists_inheritTimes (s.conditions.withAttached attached) s.conditions
  refine ⟨f attached, ?_, same attached⟩
  have hm : f attached ∈ (tr.review now ref s).state.conditions.conditions := by
    rw [hconditions, conditions]
    exact List.mem_map_of_mem (ConditionSet.mem_withAttached s.conditions attached)
  have htype : (f attached).type = attachedType :=
    (same attached).type.trans (Attachment.type_overall _ _ _)
  rw [← htype]
  exact ConditionSet.filter_type hm

/-- What an entry says does not depend on the time of the outcome. -/
theorem saysOnly_condition {cs : ConditionSet} {e : AncestryEntry} {generation : Option Int}
    (h : cs.SaysOnly (e.condition generation now)) (now' : Instant) :
    cs.SaysOnly (e.condition generation now') := by
  obtain ⟨c, hc, same⟩ := h
  exact ⟨c, hc, same.type, same.status, same.reason, same.message, same.generation⟩

/-- What is said as a whole does not depend on the time of the outcome. -/
theorem saysSame_overall {c : Condition} {attachments : List (Target × Attachment)}
    {generation : Option Int} (h : c.SaysSame (Attachment.overall attachments generation now))
    (now' : Instant) : c.SaysSame (Attachment.overall attachments generation now') := by
  have same : (Attachment.overall attachments generation now).SaysSame
      (Attachment.overall attachments generation now') := by
    match attachments with
    | [] => exact ⟨rfl, rfl, rfl, rfl, rfl⟩
    | [_] => exact ⟨rfl, rfl, rfl, rfl, rfl⟩
    | _ :: _ :: _ =>
      simp only [Attachment.overall]
      split <;> exact ⟨rfl, rfl, rfl, rfl, rfl⟩
  exact ⟨h.type.trans same.type, h.status.trans same.status, h.reason.trans same.reason,
    h.message.trans same.message, h.generation.trans same.generation⟩

end Reviewing

end Tracker

/-- What a policy brings into the contests over its targets. -/
def PolicyFacts.standing (f : PolicyFacts) : List Target × Option Instant × Option String :=
  (f.targets, f.created, f.invalid)

/-- The parts of a record that statuses depend on, and those that a review computes. -/
def PolicyRecord.essence (s : PolicyRecord) : PolicyRecord :=
  { s with
    facts :=
      { s.facts with resourceVersion := none, storedAncestors := ⟨[]⟩, storedConditions := [] }
    stored := ⟨none, none⟩
    pending := none }

namespace Tracker

section Agreement

variable {kind : PolicyKind} {tr tr' tr'' : Tracker} {ref : PolicyKey} {s s' : PolicyRecord}

/-- The policies of a kind, in essence. -/
def essences (tr : Tracker) (kind : PolicyKind) : List (PolicyKey × PolicyRecord) :=
  (tr.policies.mapValues fun _ s => s.essence).entries.filter fun p => p.1.kind = kind

/-- The essence of a policy is that of its record. -/
theorem mem_essences_iff : (ref, s) ∈ tr.essences kind ↔
    ref.kind = kind ∧ ∃ s', tr.policies.get? ref = some s' ∧ s'.essence = s := by
  rw [essences, List.mem_filter, Table.mem_entries_iff, Table.get?_mapValues, decide_eq_true_eq,
    and_comm, Option.map_eq_some_iff]

/-- Both trackers are the same in all that the statuses of one kind depend on, and hold the same
computed statuses and marks for it. -/
structure Agree (kind : PolicyKind) (tr tr' : Tracker) : Prop where
  reporter : tr'.reporter = tr.reporter
  essences : tr'.essences kind = tr.essences kind
  targets : ∀ ref s, tr.policies.get? ref = some s → ref.kind = kind →
    ∀ target ∈ s.facts.targets, tr'.targets.contains target = tr.targets.contains target
  routes : kind.reportsByAncestor = true →
    (∃ ref s, tr.policies.get? ref = some s ∧ ref.kind = kind) → tr'.routes.values = tr.routes.values
  marks : ∀ a ref, ref.kind = kind → tr'.markOf? a ref = tr.markOf? a ref

theorem Agree.refl (kind : PolicyKind) (tr : Tracker) : Agree kind tr tr :=
  ⟨rfl, rfl, fun _ _ _ _ _ _ => rfl, fun _ _ => rfl, fun _ _ _ => rfl⟩

/-- A policy of the kind has the same record in both, in essence. -/
theorem Agree.get? (h : Agree kind tr tr') (hs : tr.policies.get? ref = some s)
    (hk : ref.kind = kind) : ∃ s', tr'.policies.get? ref = some s' ∧ s'.essence = s.essence := by
  have hm : (ref, s.essence) ∈ tr.essences kind := mem_essences_iff.2 ⟨hk, s, hs, rfl⟩
  rw [← h.essences] at hm
  exact (mem_essences_iff.1 hm).2

theorem Agree.get?_symm (h : Agree kind tr tr') (hs : tr'.policies.get? ref = some s')
    (hk : ref.kind = kind) : ∃ s, tr.policies.get? ref = some s ∧ s'.essence = s.essence := by
  have hm : (ref, s'.essence) ∈ tr'.essences kind := mem_essences_iff.2 ⟨hk, s', hs, rfl⟩
  rw [h.essences] at hm
  obtain ⟨s, hs, same⟩ := (mem_essences_iff.1 hm).2
  exact ⟨s, hs, same.symm⟩

theorem targets_of_essence (h : s'.essence = s.essence) : s'.facts.targets = s.facts.targets :=
  congrArg (fun s => s.facts.targets) h

theorem generation_of_essence (h : s'.essence = s.essence) :
    s'.facts.generation = s.facts.generation :=
  congrArg (fun s => s.facts.generation) h

theorem register_of_essence (h : s'.essence = s.essence) : s'.register = s.register :=
  congrArg (fun s => s.register) h

theorem conditions_of_essence (h : s'.essence = s.essence) : s'.conditions = s.conditions :=
  congrArg (fun s => s.conditions) h

theorem Agree.trans (h : Agree kind tr tr') (h' : Agree kind tr' tr'') : Agree kind tr tr'' where
  reporter := h'.reporter.trans h.reporter
  essences := h'.essences.trans h.essences
  targets ref s hs hk target ht := by
    obtain ⟨s', hs', same⟩ := h.get? hs hk
    rw [h'.targets ref s' hs' hk target (targets_of_essence same ▸ ht), h.targets ref s hs hk target ht]
  routes hr := by
    rintro ⟨ref, s, hs, hk⟩
    obtain ⟨s', hs', -⟩ := h.get? hs hk
    rw [h'.routes hr ⟨ref, s', hs', hk⟩, h.routes hr ⟨ref, s, hs, hk⟩]
  marks a ref hk := (h'.marks a ref hk).trans (h.marks a ref hk)

/-- What the policies of a kind bring into the contests over targets. -/
def standings (tr : Tracker) (kind : PolicyKind) :
    List (PolicyKey × List Target × Option Instant × Option String) :=
  (tr.policies.mapValues fun _ s => s.facts.standing).entries.filter fun p => p.1.kind = kind

/-- A contest is among the policies that stand for the target. -/
theorem contenders_eq (tr : Tracker) (kind : PolicyKind) (target : Target) :
    tr.contenders kind target = (tr.standings kind).filterMap fun p =>
      if target ∈ p.2.1 then some { id := p.1.id, created := p.2.2.1, invalid := p.2.2.2 }
      else none := by
  rw [contenders, standings, ← List.filterMap_eq_filter, List.filterMap_filterMap, Table.mapValues,
    List.filterMap_map]
  apply List.filterMap_congr
  rintro ⟨ref, s⟩ -
  by_cases hk : ref.kind = kind <;> simp [hk, PolicyFacts.standing, Option.guard]

/-- How policies stand is part of their essence. -/
theorem standings_eq_map_essences (tr : Tracker) (kind : PolicyKind) :
    tr.standings kind = (tr.essences kind).map fun p => (p.1, p.2.facts.standing) := by
  simp only [standings, essences, Table.mapValues, List.filter_map, List.map_map]
  rfl

/-- How policies stand is part of the facts. -/
theorem standings_eq_map_facts (tr : Tracker) (kind : PolicyKind) :
    tr.standings kind =
      (tr.facts.mapValues fun _ f => f.standing).entries.filter fun p => p.1.kind = kind := by
  simp only [standings, facts, Table.mapValues, List.map_map]
  rfl

/-- Only the target itself matters to a contest. -/
theorem ofContenders_congr {targetExists targetExists' : Target → Bool} {target : Target}
    (h : targetExists' target = targetExists target) (contenders : List Contender) :
    Contest.ofContenders targetExists' target contenders =
      Contest.ofContenders targetExists target contenders := by
  simp only [Contest.ofContenders, h]

/-- The same targets have the same outcomes in both. -/
theorem attachments_congr {facts facts' : PolicyFacts} (htargets : facts'.targets = facts.targets)
    (hcontenders : ∀ target, tr'.contenders ref.kind target = tr.contenders ref.kind target)
    (hexists : ∀ target ∈ facts.targets, tr'.targets.contains target = tr.targets.contains target) :
    tr'.attachments ref facts' = tr.attachments ref facts := by
  unfold attachments
  rw [htargets]
  apply List.map_congr_left
  intro target ht
  rw [contest, contest, hcontenders, ofContenders_congr (hexists target ht)]

/-- Trackers that agree find the same outcomes for a policy. -/
theorem Agree.attachments (h : Agree ref.kind tr tr') (hs : tr.policies.get? ref = some s)
    (same : s'.essence = s.essence) :
    tr'.attachments ref s'.facts = tr.attachments ref s.facts := by
  apply attachments_congr (targets_of_essence same)
  · intro target
    rw [contenders_eq, contenders_eq, standings_eq_map_essences, standings_eq_map_essences,
      h.essences]
  · exact h.targets ref s hs rfl

/-- Trackers that agree find the same ancestors for a policy. -/
theorem Agree.ancestry (h : Agree ref.kind tr tr') (hr : ref.kind.reportsByAncestor = true)
    (hs : tr.policies.get? ref = some s) (same : s'.essence = s.essence) :
    tr'.ancestry ref s'.facts = tr.ancestry ref s.facts := by
  rw [Tracker.ancestry, Tracker.ancestry, h.attachments hs same, h.routes hr ⟨ref, s, hs, rfl⟩]

/-- What is shown stays shown. -/
theorem Agree.shown (h : Agree ref.kind tr tr') (hs : tr.policies.get? ref = some s)
    (same : s'.essence = s.essence) (shown : Shown tr ref s) : Shown tr' ref s' where
  nodup hr := by
    rw [h.reporter, register_of_essence same]
    exact shown.nodup hr
  ancestors hr a := by
    simp only [h.reporter, register_of_essence same, h.ancestry hr hs same, h.marks _ ref rfl]
    exact shown.ancestors hr a
  reports hr := by
    simp only [h.reporter, register_of_essence same, h.ancestry hr hs same, h.marks _ ref rfl,
      generation_of_essence same]
    exact shown.reports hr
  marked hr := by
    simp only [h.ancestry hr hs same, h.marks _ ref rfl]
    exact shown.marked hr
  overall hr := by
    rw [conditions_of_essence same, h.attachments hs same, generation_of_essence same]
    exact shown.overall hr

end Agreement

section Passing

variable {m : Moment} {retry leads : Bool} {kind other : PolicyKind} {tr tr' : Tracker}
  {ref : PolicyKey} {s s' : PolicyRecord}

theorem essences_eq (tr : Tracker) (kind : PolicyKind) :
    tr.essences kind = ((tr.policies.mapValues fun _ => PolicyRecord.atRest).entries.filter
      fun p => p.1.kind = kind).map fun p => (p.1, p.2.essence) := by
  simp only [essences, Table.mapValues, List.filter_map, List.map_map]
  rfl

theorem contenders_of_facts (h : tr'.facts = tr.facts) (kind : PolicyKind) (target : Target) :
    tr'.contenders kind target = tr.contenders kind target := by
  rw [contenders_eq, contenders_eq, standings_eq_map_facts, standings_eq_map_facts, h]

/-- What leaves the facts of every record leaves the facts. -/
theorem facts_of_records {f : PolicyKey → PolicyRecord → PolicyRecord}
    (h : tr'.policies.mapValues (fun _ => PolicyRecord.atRest) = tr.policies.mapValues f)
    (hf : ∀ ref s, (f ref s).facts = s.facts) : tr'.facts = tr.facts := by
  have byRest : ∀ (f : PolicyKey → PolicyRecord → PolicyRecord) (tr : Tracker),
      (∀ ref s, (f ref s).facts = s.facts) →
      ((tr.policies.mapValues f).mapValues fun _ s => s.facts) = tr.facts := by
    intro f tr hf
    apply Table.ext_entries
    simp only [Tracker.facts, Table.mapValues, List.map_map]
    apply List.map_congr_left
    rintro ⟨ref, s⟩ -
    simp [hf]
  rw [← byRest (fun _ => PolicyRecord.atRest) tr' fun _ _ => rfl, h, byRest f tr hf]

/-- A pass changes no facts. -/
theorem Passed.facts (h : Passed m retry kind tr tr') : tr'.facts = tr.facts :=
  facts_of_records h.records fun ref s => facts_reviewIn tr m.now kind ref s

/-- A pass establishes what has to be shown for every policy of its kind. -/
theorem Passed.shown (h : Passed m retry kind tr tr') (sound : tr.Sound)
    (hs' : tr'.policies.get? ref = some s') (hk : ref.kind = kind) : Shown tr' ref s' := by
  obtain ⟨s, hs⟩ := h.exists_before hs'
  obtain ⟨pending, hreviewed⟩ := h.reviewed hs hk
  obtain rfl := Option.some.inj (hs'.symm.trans hreviewed)
  have hattachments : tr'.attachments ref s.facts = tr.attachments ref s.facts := by
    apply attachments_congr rfl
    · exact contenders_of_facts h.facts ref.kind
    · intro target _
      rw [h.targets]
  have hancestry : tr'.ancestry ref s.facts = tr.ancestry ref s.facts := by
    rw [ancestry, ancestry, hattachments, h.routes]
  have hmarks : ∀ a, tr'.markOf? a ref = none ↔
      a ∉ (tr.review m.now ref s).blocked.map Prod.fst := by
    intro a
    rw [← Option.not_isSome_iff_eq_none, h.marked a ref hk, not_iff_not]
    constructor
    · rintro ⟨s₁, hs₁, hb⟩
      obtain rfl := Option.some.inj (hs.symm.trans hs₁)
      exact hb
    · exact fun hb => ⟨s, hs, hb⟩
  constructor
  · intro _
    exact (sound_review (sound ref s hs)).nodup_ancestorsOf _
  · intro hr a
    simp only [h.reporter, facts_review, hancestry, hmarks]
    exact (reviewed_review tr m.now (sound ref s hs) hr).mem_ancestorsOf a
  · intro hr e he hmark
    simp only [h.reporter, facts_review, hancestry, hmarks] at he hmark ⊢
    obtain ⟨cs, hcs, only⟩ := (reviewed_review tr m.now (sound ref s hs) hr).reports e he hmark
    exact ⟨cs, hcs, saysOnly_condition only⟩
  · intro hr a hmark
    rw [← Option.ne_none_iff_isSome, ne_eq, hmarks, not_not] at hmark
    rw [facts_review, hancestry]
    exact (reviewed_review tr m.now (sound ref s hs) hr).left_subset a hmark
  · intro hr
    simp only [facts_review, hattachments]
    obtain ⟨c, hc, same⟩ := overall_review tr m.now s hr
    exact ⟨c, hc, saysSame_overall same⟩

theorem Passed.sound (h : Passed m retry kind tr tr') (sound : tr.Sound) : tr'.Sound := by
  intro ref s' hs'
  obtain ⟨s, hs⟩ := h.exists_before hs'
  by_cases hk : ref.kind = kind
  · obtain ⟨pending, hreviewed⟩ := h.reviewed hs hk
    obtain rfl := Option.some.inj (hs'.symm.trans hreviewed)
    exact sound_review (sound ref s hs)
  · obtain ⟨pending, hkept⟩ := h.passedBy hs hk
    obtain rfl := Option.some.inj (hs'.symm.trans hkept)
    exact sound ref s hs

/-- A pass over one kind is no business of another. -/
theorem Passed.agree (h : Passed m retry kind tr tr') (hk : other ≠ kind) : Agree other tr tr' where
  reporter := h.reporter
  essences := by
    rw [essences_eq, essences_eq, h.records]
    simp only [Table.mapValues, List.filter_map, List.map_map]
    apply List.map_congr_left
    rintro ⟨ref, s⟩ hm
    have href : ref.kind = other := by simpa using (List.mem_filter.1 hm).2
    simp [reviewIn, href, hk]
  targets _ _ _ _ _ _ := by rw [h.targets]
  routes _ _ := by rw [h.routes]
  marks a ref hr := h.unmarked a ref (hr ▸ hk)

/-- Sending changes nothing that statuses depend on. -/
theorem Sends.agree {offered : List StatusChange} (h : Sends leads offered tr tr')
    (kind : PolicyKind) : Agree kind tr tr' where
  reporter := h.reporter
  essences := by rw [essences_eq, essences_eq, h.records]
  targets _ _ _ _ _ _ := by rw [h.targets]
  routes _ _ := by rw [h.routes]
  marks _ _ _ := by rw [markOf?, h.marks, markOf?]

theorem Sends.facts {offered : List StatusChange} (h : Sends leads offered tr tr') :
    tr'.facts = tr.facts :=
  facts_of_records h.records fun _ _ => rfl

theorem Sends.sound {offered : List StatusChange} (h : Sends leads offered tr tr')
    (sound : tr.Sound) : tr'.Sound := by
  intro ref s' hs'
  obtain ⟨s, hs, rest⟩ := Table.get?_eq_some_of_mapValues h.records.symm hs'
  have : s'.register = s.register := congrArg (fun s => s.register) rest.symm
  rw [this]
  exact sound ref s hs

end Passing

end Tracker
end PolicyAttachment
