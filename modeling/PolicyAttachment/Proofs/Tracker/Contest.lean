import PolicyAttachment.Tracker.Basic
import PolicyAttachment.Proofs.Tracker.Shown

/-!
# Contests over targets

A contest has one outcome for each contender, and what the outcome is depends on whether the contender
is valid: an invalid one is told so, neither wins nor stands in another's way. Among the policies of a
tracker each contender is one policy, so the same holds of policies.
-/

namespace PolicyAttachment
set_option autoImplicit false

namespace Contest

variable {targetExists : Target → Bool} {target : Target} {contenders : List Contender}
  {c : Contender} {id w : PolicyId} {why : String}

/-- The winner is a valid contender. -/
theorem exists_valid_of_winner (h : (ofContenders targetExists target contenders).winner = some w) :
    ∃ c ∈ contenders, c.invalid = none ∧ c.id = w := by
  simp only [ofContenders] at h
  split at h
  · obtain ⟨c, hc, rfl⟩ := Option.map_eq_some_iff.1 h
    obtain ⟨hm, valid⟩ := List.mem_filter.1 (List.mem_mergeSort.1 (List.mem_of_head? hc))
    exact ⟨c, hm, Option.isNone_iff_eq_none.1 valid, rfl⟩
  · cases h

/-- Every outcome is that of a valid contender, given who won, or that of an invalid one. -/
theorem mem_attachments_iff {a : Attachment} :
    (id, a) ∈ (ofContenders targetExists target contenders).attachments ↔
      (∃ c ∈ contenders, c.invalid = none ∧ c.id = id ∧
        a = outcome (ofContenders targetExists target contenders).winner c) ∨
      (∃ c ∈ contenders, ∃ why, c.invalid = some why ∧ c.id = id ∧ a = .invalid why) := by
  simp only [ofContenders, List.mem_append, List.mem_map, List.mem_mergeSort, List.mem_filter,
    Contender.isValid, Option.isNone_iff_eq_none, Prod.mk.injEq]
  refine or_congr ⟨?_, ?_⟩ ⟨?_, ?_⟩
  · rintro ⟨c, ⟨hc, valid⟩, rfl, rfl⟩
    exact ⟨c, hc, valid, rfl, rfl⟩
  · rintro ⟨c, hc, valid, rfl, rfl⟩
    exact ⟨c, ⟨hc, valid⟩, rfl, rfl⟩
  · rintro ⟨c, ⟨hc, invalid⟩, rfl, rfl⟩
    obtain ⟨why, hw⟩ : ∃ why, c.invalid = some why := by simpa [Option.isSome_iff_exists] using invalid
    exact ⟨c, hc, why, hw, rfl, by rw [hw, Option.getD_some]⟩
  · rintro ⟨c, hc, why, hw, rfl, rfl⟩
    exact ⟨c, ⟨hc, by simp [hw]⟩, rfl, by rw [hw, Option.getD_some]⟩

theorem mem_attachments_of_get? {contest : Contest} {a : Attachment} (h : contest.get? id = some a) :
    (id, a) ∈ contest.attachments := by
  obtain ⟨before, after, heq, -⟩ := List.lookup_eq_some_iff.1 h
  rw [heq]
  exact List.mem_append_right _ List.mem_cons_self

/-- Whoever stands in the way of another has won. -/
theorem winner_of_conflicted
    (h : (ofContenders targetExists target contenders).get? id = some (.conflicted w)) :
    (ofContenders targetExists target contenders).winner = some w := by
  have listed := mem_attachments_iff.1 (mem_attachments_of_get? h)
  rcases listed with ⟨c, -, -, -, heq⟩ | ⟨c, -, why, -, -, heq⟩
  · unfold outcome at heq
    split at heq
    · nomatch heq
    · rename_i hw
      split at heq
      · nomatch heq
      · cases heq
        exact hw
  · nomatch heq

/-- The outcome for an invalid contender whose id no other contender has. -/
theorem get?_of_invalid (hc : c ∈ contenders) (hw : c.invalid = some why)
    (unique : ∀ d ∈ contenders, d.id = c.id → d = c) :
    (ofContenders targetExists target contenders).get? c.id = some (.invalid why) := by
  have listed : (c.id, .invalid why) ∈ (ofContenders targetExists target contenders).attachments :=
    mem_attachments_iff.2 (.inr ⟨c, hc, why, hw, rfl, rfl⟩)
  obtain ⟨a, ha⟩ : ∃ a, (ofContenders targetExists target contenders).get? c.id = some a := by
    rw [← Option.isSome_iff_exists, ← Option.ne_none_iff_isSome]
    intro hnone
    have other := List.lookup_eq_none_iff.1 hnone _ listed
    simp at other
  rcases mem_attachments_iff.1 (mem_attachments_of_get? ha) with
    ⟨d, hd, valid, hid, -⟩ | ⟨d, hd, why', hw', hid, rfl⟩
  · rw [unique d hd hid, hw] at valid
    nomatch valid
  · rw [unique d hd hid, hw] at hw'
    cases hw'
    exact ha

end Contest

namespace AncestryEntry

variable {routes : List RouteLinks} {attachments : List (Target × Attachment)} {e : AncestryEntry}

theorem mem_or_eq_of_mem_add {es : List AncestryEntry} {new : AncestryEntry} (h : e ∈ add es new) :
    e ∈ es ∨ e = new := by
  unfold add at h
  split at h
  · obtain ⟨d, hd, rfl⟩ := List.mem_map.1 h
    split
    · exact .inr rfl
    · exact .inl hd
  · simpa using h

theorem add_ne_nil (es : List AncestryEntry) (new : AncestryEntry) : add es new ≠ [] := by
  unfold add
  split
  · rename_i taken
    obtain ⟨d, hd, -⟩ := List.any_eq_true.1 taken
    simp [List.ne_nil_of_mem hd]
  · simp

/-- Adding entries brings in no others. -/
theorem mem_or_mem_of_mem_foldl_add {new es : List AncestryEntry} (h : e ∈ new.foldl add es) :
    e ∈ es ∨ e ∈ new := by
  induction new generalizing es with
  | nil => exact .inl h
  | cons d new ih =>
    rcases ih h with h | h
    · rcases mem_or_eq_of_mem_add h with h | rfl
      · exact .inl h
      · exact .inr List.mem_cons_self
    · exact .inr (List.mem_cons_of_mem d h)

/-- What is reported for an ancestor is the outcome on one of the targets below it. -/
theorem mem_of_mem_ofAttachments (h : e ∈ ofAttachments routes attachments) :
    (e.target, e.attachment) ∈ attachments ∧ e.ancestor ∈ e.target.ancestors routes := by
  rcases mem_or_mem_of_mem_foldl_add h with h | h
  · nomatch h
  · obtain ⟨⟨target, attachment⟩, hm, h⟩ := List.mem_flatMap.1 h
    obtain ⟨a, ha, rfl⟩ := List.mem_map.1 h
    exact ⟨hm, ha⟩

/-- Every target has an ancestor, if only itself. -/
theorem ancestors_ne_nil (routes : List RouteLinks) (t : Target) : t.ancestors routes ≠ [] := by
  unfold Target.ancestors
  split
  · split
    · simp
    · rename_i hne
      exact fun hnil => hne hnil
  · simp

/-- A policy with a target has an ancestor. -/
theorem ofAttachments_ne_nil (h : attachments ≠ []) : ofAttachments routes attachments ≠ [] := by
  have run : ∀ (new es : List AncestryEntry), es ≠ [] → new.foldl add es ≠ [] := by
    intro new
    induction new with
    | nil => exact fun es h => h
    | cons d new ih => exact fun es _ => ih _ (add_ne_nil es d)
  obtain ⟨⟨target, attachment⟩, rest, rfl⟩ := List.exists_cons_of_ne_nil h
  obtain ⟨a, others, ha⟩ := List.exists_cons_of_ne_nil (ancestors_ne_nil routes target)
  simp only [ofAttachments, List.flatMap_cons, ha, List.map_cons, List.cons_append, List.foldl_cons]
  exact run _ _ (add_ne_nil _ _)

end AncestryEntry

namespace Tracker

variable {tr : Tracker} {ref ref' : PolicyKey} {r : PolicyRecord} {kind : PolicyKind}
  {target : Target} {why : String}

/-- A contender is a policy of the kind that names the target. -/
theorem mem_contenders_iff {c : Contender} : c ∈ tr.contenders kind target ↔
    ∃ r, tr.policies.get? ⟨kind, c.id⟩ = some r ∧ target ∈ r.facts.targets ∧
      c = { id := c.id, created := r.facts.created, invalid := r.facts.invalid } := by
  simp only [contenders, List.mem_filterMap, Option.ite_none_right_eq_some, Option.some.injEq]
  constructor
  · rintro ⟨⟨ref, r⟩, hr, ⟨rfl, ht⟩, rfl⟩
    exact ⟨r, Table.mem_entries_iff.1 hr, ht, rfl⟩
  · rintro ⟨r, hr, ht, heq⟩
    exact ⟨⟨⟨kind, c.id⟩, r⟩, Table.mem_entries_iff.2 hr, ⟨rfl, ht⟩, heq.symm⟩

/-- A policy enters a contest once. -/
theorem eq_of_mem_contenders {c d : Contender} (hc : c ∈ tr.contenders kind target)
    (hd : d ∈ tr.contenders kind target) (h : d.id = c.id) : d = c := by
  obtain ⟨r, hr, -, hcr⟩ := mem_contenders_iff.1 hc
  obtain ⟨r', hr', -, hdr⟩ := mem_contenders_iff.1 hd
  rw [h] at hr' hdr
  obtain rfl := Option.some.inj (hr.symm.trans hr')
  rw [hcr, hdr]

section Invalid

variable (hr : tr.policies.get? ref = some r) (invalid : r.facts.invalid = some why)
include hr invalid

/-- An invalid policy is told so on each of its targets. -/
theorem attachments_of_invalid :
    tr.attachments ref r.facts = r.facts.targets.map fun t => (t, .invalid why) := by
  unfold attachments
  apply List.map_congr_left
  intro t ht
  let c : Contender := { id := ref.id, created := r.facts.created, invalid := r.facts.invalid }
  have hc : c ∈ tr.contenders ref.kind t := mem_contenders_iff.2 ⟨r, hr, ht, rfl⟩
  have outcome : (tr.contest ref.kind t).get? ref.id = some (.invalid why) :=
    Contest.get?_of_invalid hc invalid fun d hd => eq_of_mem_contenders hc hd
  rw [outcome, Option.getD_some]

/-- An invalid policy wins nowhere. -/
theorem winner_ne_of_invalid (t : Target) : (tr.contest ref.kind t).winner ≠ some ref.id := by
  intro hw
  obtain ⟨c, hc, valid, hid⟩ := Contest.exists_valid_of_winner hw
  obtain ⟨r', hr', -, heq⟩ := mem_contenders_iff.1 hc
  rw [hid] at hr'
  obtain rfl := Option.some.inj (hr.symm.trans hr')
  rw [heq, invalid] at valid
  nomatch valid

/-- No policy of the kind is kept off a target by an invalid one. -/
theorem not_conflicted_of_invalid (hk : ref'.kind = ref.kind) (facts : PolicyFacts) (t : Target) :
    (t, .conflicted ref.id) ∉ tr.attachments ref' facts := by
  intro h
  obtain ⟨t', -, same⟩ := List.mem_map.1 h
  simp only [Prod.mk.injEq] at same
  obtain ⟨rfl, heq⟩ := same
  cases hget : (tr.contest ref'.kind t').get? ref'.id with
  | none =>
    rw [hget] at heq
    nomatch heq
  | some a =>
    rw [hget, Option.getD_some] at heq
    rw [heq] at hget
    have hw := Contest.winner_of_conflicted hget
    rw [hk] at hw
    exact winner_ne_of_invalid hr invalid t' hw

end Invalid

end Tracker
end PolicyAttachment
