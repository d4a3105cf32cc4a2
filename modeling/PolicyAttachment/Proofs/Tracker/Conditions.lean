import PolicyAttachment.Proofs.Register.Stored
import PolicyAttachment.Proofs.Tracker.Shown

/-!
# Conditions of others

Next to the condition `Attached`, which is ours, a policy as a whole has conditions that others wrote.
Computing ours leaves those as they are, except that in a set which they fill the one that started
earliest makes room: `leavingRoom`. That happens once only, and it makes no difference whether a policy
is seen for the first time or again.
-/

namespace PolicyAttachment
set_option autoImplicit false

/-- An instant is before another by its second, or in the same second by its fraction. -/
theorem Instant.before_iff {a b : Instant} : a.before b = true ↔
    a.second < b.second ∨ a.second = b.second ∧ a.nanosecond < b.nanosecond := by
  have lexicographic : compare a b =
    (compare a.second b.second).then (compare a.nanosecond b.nanosecond) := rfl
  rw [before, lexicographic, Ordering.isLT_iff_eq_lt, Ordering.then_eq_lt, Int.compare_eq_lt,
    Int.compare_eq_eq, Nat.compare_eq_lt]

section LeavingRoom

variable {α β : Type} {time : α → Instant} {l xs ys : List α} {a : α}

/-- What is left of a list once there is room for one more condition. From a list that fills a set, the
first of the elements that no other comes before is left out. -/
def leavingRoom (time : α → Instant) (l : List α) : List α :=
  if l.length < maxConditions then l
  else l.eraseP fun a => l.all fun b => !(time b).before (time a)

theorem leavingRoom_of_lt (h : l.length < maxConditions) : leavingRoom time l = l := if_pos h

theorem leavingRoom_subset : leavingRoom time l ⊆ l := by
  unfold leavingRoom
  split
  · exact List.Subset.refl l
  · exact List.eraseP_subset

theorem leavingRoom_eq_nil_iff : leavingRoom time l = [] ↔ l = [] := by
  unfold leavingRoom
  split
  · rfl
  · rename_i full
    rw [List.eraseP_eq_nil_iff, or_iff_left]
    rintro ⟨a, -, rfl⟩
    exact full (by simp [maxConditions])

/-- Making room goes by the times alone. -/
theorem leavingRoom_map (time : β → Instant) (f : α → β) (l : List α) :
    leavingRoom time (l.map f) = (leavingRoom (time ∘ f) l).map f := by
  unfold leavingRoom
  rw [List.length_map]
  split
  · rfl
  · rw [List.eraseP_map]
    congr 2
    funext a
    rw [Function.comp, List.all_map]
    rfl

/-- In `xs ++ a :: ys`, `a` is the first of those that no other comes before. -/
structure Earliest (time : α → Instant) (xs : List α) (a : α) (ys : List α) : Prop where
  earlier : ∀ x ∈ xs, (time a).before (time x) = true
  notLater : ∀ y ∈ ys, (time y).before (time a) = false

/-- In a full list the earliest element makes room. -/
theorem Earliest.leavingRoom_eq (h : Earliest time xs a ys)
    (full : maxConditions ≤ (xs ++ a :: ys).length) :
    leavingRoom time (xs ++ a :: ys) = xs ++ ys := by
  have rest : ∀ b ∈ xs ++ a :: ys, (time b).before (time a) = false := by
    intro b hb
    rw [← Bool.not_eq_true]
    rcases List.mem_append.1 hb with hx | hb
    · have := Instant.before_iff.1 (h.earlier b hx)
      rw [Instant.before_iff]
      omega
    · rcases List.mem_cons.1 hb with rfl | hy
      · rw [Instant.before_iff]
        omega
      · rw [Bool.not_eq_true]
        exact h.notLater b hy
  rw [leavingRoom, if_neg (Nat.not_lt.2 full), List.eraseP_append_right, List.eraseP_cons_of_pos]
  · rw [List.all_eq_true]
    intro b hb
    rw [rest b hb]
    rfl
  · intro x hx all
    have := List.all_eq_true.1 all a (by simp)
    rw [h.earlier x hx] at this
    cases this

end LeavingRoom

/-- The oldest condition is the first of those that started earliest. -/
theorem Condition.exists_earliest {cs : List Condition} {c : Condition} (h : oldest? cs = some c) :
    ∃ xs ys, cs = xs ++ c :: ys ∧ Earliest lastTransition xs c ys := by
  induction cs generalizing c with
  | nil => cases h
  | cons d cs ih =>
    unfold oldest? at h
    cases hcs : oldest? cs with
    | none =>
      rw [hcs] at h
      cases h
      have : cs = [] := by
        by_contra nonempty
        obtain ⟨e, he⟩ := exists_oldest? nonempty
        rw [hcs] at he
        cases he
      exact ⟨[], [], by rw [this]; rfl, by simp, by simp⟩
    | some e =>
      obtain ⟨xs, ys, rfl, earliest⟩ := ih hcs
      simp only [hcs] at h
      split at h
      · rename_i first
        cases h
        refine ⟨d :: xs, ys, rfl, ?_, earliest.notLater⟩
        intro x hx
        rcases List.mem_cons.1 hx with rfl | hx
        · exact first
        · exact earliest.earlier x hx
      · rename_i later
        cases h
        refine ⟨[], _, rfl, by simp, ?_⟩
        intro x hx
        rw [Instant.before_iff] at later
        rw [← Bool.not_eq_true, Instant.before_iff]
        rcases List.mem_append.1 hx with hx | hx
        · have := Instant.before_iff.1 (earliest.earlier x hx)
          omega
        · rcases List.mem_cons.1 hx with rfl | hx
          · exact later
          · have := earliest.notLater x hx
            rw [← Bool.not_eq_true, Instant.before_iff] at this
            omega

/-- Leaving out the oldest of the conditions that fill a set leaves room. -/
theorem Condition.erase_oldest {cs : List Condition} {c : Condition} (h : oldest? cs = some c)
    (full : maxConditions ≤ cs.length) : cs.erase c = leavingRoom lastTransition cs := by
  obtain ⟨xs, ys, rfl, earliest⟩ := exists_earliest h
  have fresh : c ∉ xs := by
    intro hm
    have := Instant.before_iff.1 (earliest.earlier c hm)
    omega
  rw [earliest.leavingRoom_eq full, List.erase_append_right _ fresh, List.erase_cons_head]

namespace ConditionSet

/-- The conditions that are not ours. -/
def others (s : ConditionSet) : List Condition := s.conditions.filter fun c => c.type != attachedType

variable {s t : ConditionSet} {c : Condition}

theorem mem_others_iff : c ∈ s.others ↔ c ∈ s.conditions ∧ c.type ≠ attachedType := by
  rw [others, List.mem_filter, bne_iff_ne]

/-- Beside ours there is room for seven. -/
theorem length_others_lt (h : attachedType ∈ s.types) : s.others.length < maxConditions := by
  obtain ⟨c, hc, htype⟩ := List.mem_map.1 h
  have fewer : s.others.length < s.conditions.length :=
    List.length_filter_lt_length_iff_exists.2 ⟨c, hc, by simp [htype]⟩
  exact Nat.lt_of_lt_of_le fewer s.bounded

theorem others_of_not_mem (h : attachedType ∉ s.types) : s.others = s.conditions := by
  rw [others, List.filter_eq_self]
  intro c hc
  rw [bne_iff_ne]
  exact fun htype => h (htype ▸ List.mem_map_of_mem hc)

/-- Changing conditions, but not their types, changes the others as much. -/
theorem others_mapKeepingType (f : Condition → Condition) (h : ∀ c, (f c).type = c.type) :
    (s.mapKeepingType f h).others = s.others.map f := by
  rw [others, mapKeepingType, List.filter_map, others]
  congr 2
  funext c
  rw [Function.comp, h]

/-- Replacing ours leaves the others'. -/
theorem others_replace (hc : c.type = attachedType) : (s.replace c).others = s.others := by
  rw [replace, others_mapKeepingType]
  refine (List.map_congr_left ?_).trans (List.map_id _)
  intro d hd
  rw [if_neg (hc ▸ (mem_others_iff.1 hd).2)]
  rfl

/-- In a set that is full, the oldest condition makes room for a new one. -/
theorem conditions_withAttached_of_full (absent : c.type ∉ s.types) (full : ¬ s.size < maxConditions) :
    ∃ oldest, Condition.oldest? s.conditions = some oldest ∧
      (s.withAttached c).conditions = s.conditions.erase oldest ++ [c] := by
  have nonempty : s.conditions ≠ [] := by
    intro hnil
    simp [size, hnil, maxConditions] at full
  obtain ⟨d, oldest⟩ := Condition.exists_oldest? nonempty
  have displaced := s.insert_eq c .displaceOldest
  rw [if_neg absent, if_neg full, oldest] at displaced
  refine ⟨d, oldest, ?_⟩
  rw [withAttached, insert_of_full absent full]
  cases hs : s.insert c .displaceOldest with
  | error x =>
    rw [hs] at displaced
    cases displaced
  | ok s' =>
    rw [hs] at displaced
    exact Except.ok.inj displaced

/-- Our condition takes no other's place unless the others fill the set. -/
theorem others_withAttached (s : ConditionSet) (hc : c.type = attachedType) :
    (s.withAttached c).others = leavingRoom Condition.lastTransition s.others := by
  have notOther : [c].filter (fun d => d.type != attachedType) = [] := by simp [hc]
  by_cases present : c.type ∈ s.types
  · rw [withAttached, insert, dif_pos present, leavingRoom_of_lt (length_others_lt (hc ▸ present))]
    exact others_replace hc
  · have absent : s.others = s.conditions := others_of_not_mem (hc ▸ present)
    by_cases room : s.size < maxConditions
    · rw [withAttached, insert, dif_neg present, dif_pos room, absent, leavingRoom_of_lt room]
      show (s.conditions ++ [c]).filter _ = _
      rw [List.filter_append, notOther, List.append_nil]
      exact absent
    · obtain ⟨d, oldest, conditions⟩ := conditions_withAttached_of_full present room
      rw [absent, ← Condition.erase_oldest oldest (Nat.not_lt.1 room), others, conditions,
        List.filter_append, notOther, List.append_nil, List.filter_eq_self]
      intro e he
      rw [bne_iff_ne]
      exact (mem_others_iff.1 (absent ▸ List.mem_of_mem_erase he)).2

/-- Ours is there in the end, so room is left once only. -/
theorem leavingRoom_others_withAttached (s : ConditionSet) (hc : c.type = attachedType) :
    leavingRoom Condition.lastTransition (s.withAttached c).others =
      leavingRoom Condition.lastTransition s.others := by
  rw [leavingRoom_of_lt, others_withAttached s hc]
  apply length_others_lt
  rw [← hc]
  exact List.mem_map_of_mem (mem_withAttached s c)

/-- The others keep their times. -/
theorem others_inheritTimes (h : t.others ⊆ s.others) : (t.inheritTimes s).others = t.others := by
  rw [inheritTimes, others_mapKeepingType]
  refine (List.map_congr_left ?_).trans (List.map_id _)
  intro d hd
  rw [get?_of_mem (mem_others_iff.1 (h hd)).1]
  simp

/-- What others have stored takes the place of what was known of theirs. -/
theorem leavingRoom_others_merge (current : ConditionSet) (stored : List StoredCondition) :
    leavingRoom Condition.lastTransition (current.merge stored).others =
      leavingRoom Condition.lastTransition (readable stored).others := by
  unfold merge
  cases hget : current.get? attachedType with
  | none => rfl
  | some attached =>
    have htype : attached.type = attachedType := by simpa using List.find?_some hget
    exact leavingRoom_others_withAttached _ htype

end ConditionSet

namespace StoredCondition

/-- The conditions of a stored list that are not ours. -/
def others (l : List StoredCondition) : List StoredCondition :=
  l.filter fun c => c.type != attachedType

theorem others_written (l : List StoredCondition) :
    others (l.map written) = (others l).map written := by
  rw [others, List.filter_map]
  rfl

end StoredCondition

namespace ConditionSet

theorem others_toStored (s : ConditionSet) :
    StoredCondition.others s.toStored = s.others.map Condition.toStored := by
  rw [StoredCondition.others, toStored, List.filter_map]
  rfl

/-- A legible list is stored as it was. -/
theorem toStored_readable {l : List StoredCondition} (h : Legible l) : (readable l).toStored = l := by
  obtain ⟨s, hs⟩ := exists_ofStored_iff.2 h
  rw [readable, hs]
  exact toStored_of_ofStored hs

theorem readable_of_not_legible {l : List StoredCondition} (h : ¬ Legible l) : readable l = empty := by
  rw [← exists_ofStored_iff] at h
  rw [readable]
  cases hs : ofStored l with
  | ok s => exact absurd ⟨s, hs⟩ h
  | error x => rfl

end ConditionSet

namespace Tracker

variable {tr : Tracker} {ref : PolicyKey} {s : PolicyRecord}

/-- A review leaves the others as they are, if there is room for ours. -/
theorem others_review (hk : ref.kind.reportsAsWhole = true) (tr : Tracker) (now : Instant)
    (s : PolicyRecord) : (tr.review now ref s).state.conditions.others =
      leavingRoom Condition.lastTransition s.conditions.others := by
  have htype := Attachment.type_overall (tr.attachments ref s.facts) s.facts.generation now
  have others := s.conditions.others_withAttached htype
  simp only [review, hk, if_true]
  rw [ConditionSet.others_inheritTimes, others]
  rw [others]
  exact leavingRoom_subset

/-- A review of a policy that reports as a whole takes from the others' conditions at most the one
that makes room. -/
theorem leavingRoom_others_review (hk : ref.kind.reportsAsWhole = true) (tr : Tracker)
    (now : Instant) (s : PolicyRecord) :
    leavingRoom Condition.lastTransition (tr.review now ref s).state.conditions.others =
      leavingRoom Condition.lastTransition s.conditions.others := by
  have htype := Attachment.type_overall (tr.attachments ref s.facts) s.facts.generation now
  rw [others_review hk, ← s.conditions.others_withAttached htype,
    s.conditions.leavingRoom_others_withAttached htype, s.conditions.others_withAttached htype]

end Tracker
end PolicyAttachment
