import PolicyAttachment.Proofs.Register.Resume

/-!
# Reading stored conditions

A stored list is read from the front. It reads as a set if it is `WellFormed`, and then it is what is
written for that set. Otherwise the first condition with which it stops being well formed is to blame, and
`Fault` says what for: `ConditionSet.ofStored_reads_exactly`.
-/

namespace PolicyAttachment
set_option autoImplicit false

namespace StoredCondition

/-- The texts that say whether a condition holds. -/
def knownStatuses : List String := ["True", "False", "Unknown"]

/-- Of a stored condition nothing but the status can fail to read. -/
theorem isSome_ofStored?_iff {c : StoredCondition} :
    (Condition.ofStored? c).isSome ↔ c.status ∈ knownStatuses := by
  rw [Condition.ofStored?, Option.isSome_map]
  constructor
  · intro h
    obtain ⟨status, hs⟩ := Option.isSome_iff_exists.1 h
    rw [← ConditionStatus.text_of_parse? hs]
    cases status <;> decide
  · simp only [knownStatuses, List.mem_cons, List.not_mem_nil, or_false]
    rintro (h | h | h) <;> rw [h] <;> decide

end StoredCondition

namespace ConditionSet

open StoredCondition (knownStatuses isSome_ofStored?_iff)

/-- At most eight stored conditions, of distinct types, all with a known status. -/
structure WellFormed (l : List StoredCondition) : Prop where
  statuses : ∀ c ∈ l, c.status ∈ knownStatuses
  distinct : (l.map StoredCondition.type).Nodup
  bounded : l.length ≤ maxConditions

/-- What is wrong with `c` after the conditions `read`. A status that is not known goes first, then a type
that occurred. -/
inductive Fault (read : List StoredCondition) (c : StoredCondition) : InvalidConditions → Prop
  | unknownStatus (unknown : c.status ∉ knownStatuses) : Fault read c (.unknownStatus c.type c.status)
  | duplicateType (known : c.status ∈ knownStatuses)
      (occurred : c.type ∈ read.map StoredCondition.type) : Fault read c (.duplicateType c.type)
  | ninth (known : c.status ∈ knownStatuses) (fresh : c.type ∉ read.map StoredCondition.type)
      (full : read.length = maxConditions) : Fault read c (.exceeded ⟨c.type⟩)

variable {l read rest : List StoredCondition} {c : StoredCondition} {s : ConditionSet}
  {e : InvalidConditions}

/-- A list reads exactly if it is well formed. -/
theorem legible_iff : Legible l ↔ WellFormed l := by
  constructor
  · intro h
    exact ⟨fun c hc => isSome_ofStored?_iff.1 (h.known c hc), h.distinct, h.bounded⟩
  · intro h
    exact ⟨fun c hc => isSome_ofStored?_iff.2 (h.statuses c hc), h.distinct, h.bounded⟩

/-- What a set stores is well formed. -/
theorem wellFormed_toStored (s : ConditionSet) : WellFormed s.toStored :=
  legible_iff.1 (legible_toStored s)

/-- The front of a well-formed list is well formed. -/
theorem WellFormed.of_append (h : WellFormed (read ++ rest)) : WellFormed read where
  statuses c hc := h.statuses c (List.mem_append_left rest hc)
  distinct := by
    have distinct := h.distinct
    rw [List.map_append] at distinct
    exact distinct.of_append_left
  bounded := by
    have bounded := h.bounded
    rw [List.length_append] at bounded
    omega

/-- After a fault the list is well formed no more. -/
theorem Fault.not_wellFormed (h : Fault read c e) : ¬ WellFormed (read ++ [c]) := by
  intro well
  cases h with
  | unknownStatus unknown => exact unknown (well.statuses c (by simp))
  | duplicateType known occurred =>
    have distinct := well.distinct
    rw [List.map_append, List.map_singleton, List.nodup_append] at distinct
    exact distinct.2.2 c.type occurred c.type (List.mem_singleton_self _) rfl
  | ninth known fresh full =>
    have bounded := well.bounded
    rw [List.length_append, full, List.length_singleton] at bounded
    omega

/-- There is one fault at most. -/
theorem Fault.unique {e' : InvalidConditions} (h : Fault read c e) (h' : Fault read c e') : e = e' := by
  cases h with
  | unknownStatus unknown =>
    cases h' with
    | unknownStatus => rfl
    | duplicateType known => exact absurd known unknown
    | ninth known => exact absurd known unknown
  | duplicateType known occurred =>
    cases h' with
    | unknownStatus unknown => exact absurd known unknown
    | duplicateType => rfl
    | ninth _ fresh => exact absurd occurred fresh
  | ninth known fresh full =>
    cases h' with
    | unknownStatus unknown => exact absurd known unknown
    | duplicateType _ occurred => exact absurd occurred fresh
    | ninth => rfl

/-- A condition is refused for a fault, or comes after those of the set. -/
theorem insertStored_cases (s : ConditionSet) (c : StoredCondition) :
    (∃ e, s.insertStored c = .error e ∧ Fault s.toStored c e) ∨
      ∃ s', s.insertStored c = .ok s' ∧ s'.toStored = s.toStored ++ [c] := by
  cases hc : Condition.ofStored? c with
  | none =>
    have unknown : c.status ∉ knownStatuses := by
      rw [← isSome_ofStored?_iff, hc]
      exact Bool.false_ne_true
    exact .inl ⟨_, by simp only [insertStored, hc], .unknownStatus unknown⟩
  | some d =>
    have known : c.status ∈ knownStatuses := by
      rw [← isSome_ofStored?_iff, hc]
      rfl
    have type := type_of_ofStored? hc
    by_cases occurred : d.type ∈ s.types
    · refine .inl ⟨.duplicateType c.type, ?_, .duplicateType known ?_⟩
      · rw [insertStored, hc]
        exact (if_pos occurred).trans (by rw [type])
      · rwa [types_toStored, ← type]
    · by_cases room : s.size < maxConditions
      · exact .inr ⟨_, insertStored_eq hc occurred room, toStored_append hc occurred room⟩
      · refine .inl ⟨.exceeded ⟨c.type⟩, ?_, .ninth known ?_ ?_⟩
        · rw [insertStored, hc]
          exact (if_neg occurred).trans (by rw [insert_of_full occurred room, type]; rfl)
        · rwa [types_toStored, ← type]
        · rw [length_toStored]
          exact Nat.le_antisymm s.bounded (Nat.not_lt.1 room)

/-- A place in a list is its first one or one further on. -/
theorem exists_split_cons {α : Type} {P : List α → α → Prop} {a : α} {l : List α} :
    (∃ xs x ys, a :: l = xs ++ x :: ys ∧ P xs x) ↔
      P [] a ∨ ∃ xs x ys, l = xs ++ x :: ys ∧ P (a :: xs) x := by
  constructor
  · rintro ⟨_ | ⟨b, xs⟩, x, ys, split, h⟩
    · cases split
      exact .inl h
    · cases split
      exact .inr ⟨xs, x, ys, rfl, h⟩
  · rintro (h | ⟨xs, x, ys, rfl, h⟩)
    · exact ⟨[], a, l, rfl, h⟩
    · exact ⟨a :: xs, x, ys, rfl, h⟩

/-- Reading on after the conditions of a set fails at the first condition that has a fault. -/
theorem foldlM_eq_error_iff : l.foldlM insertStored s = .error e ↔
    ∃ read c rest, l = read ++ c :: rest ∧ WellFormed (s.toStored ++ read) ∧
      Fault (s.toStored ++ read) c e := by
  induction l generalizing s with
  | nil =>
    refine iff_of_false nofun ?_
    rintro ⟨read, c, rest, split, -⟩
    simp at split
  | cons a l ih =>
    rw [List.foldlM_cons]
    refine Iff.trans ?_ exists_split_cons.symm
    rw [List.append_nil]
    rcases insertStored_cases s a with ⟨e', refused, fault⟩ | ⟨s', added, stored⟩
    · rw [refused, or_iff_left]
      · constructor
        · rintro ⟨⟩
          exact ⟨wellFormed_toStored s, fault⟩
        · rintro ⟨-, fault'⟩
          exact congrArg Except.error (fault.unique fault')
      · rintro ⟨read, c, rest, -, well, -⟩
        rw [List.append_cons] at well
        exact fault.not_wellFormed well.of_append
    · rw [added, or_iff_right]
      · refine ih.trans ?_
        simp only [stored, List.append_assoc, List.singleton_append]
      · rintro ⟨-, fault⟩
        exact fault.not_wellFormed (stored ▸ wellFormed_toStored s')

/-- A stored list reads exactly if it is well formed, and then as the set for which just this list is
written; every set is read from what is written for it. A list that does not read is refused for the
first condition with which it is well formed no more. -/
theorem ofStored_reads_exactly (l : List StoredCondition) :
    ((∃ s, ofStored l = .ok s) ↔ WellFormed l) ∧
    (∀ s, ofStored l = .ok s ↔ s.toStored = l) ∧
    (∀ e, ofStored l = .error e ↔ ∃ read c rest, l = read ++ c :: rest ∧ WellFormed read ∧
      ¬ WellFormed (read ++ [c]) ∧ Fault read c e) ∧
    ∀ s : ConditionSet, ofStored s.toStored = .ok s := by
  refine ⟨exists_ofStored_iff.trans legible_iff, fun s => ⟨toStored_of_ofStored, ?_⟩, fun e => ?_,
    ofStored_toStored⟩
  · rintro rfl
    exact ofStored_toStored s
  · refine foldlM_eq_error_iff.trans ?_
    constructor
    · rintro ⟨read, c, rest, split, well, fault⟩
      exact ⟨read, c, rest, split, well, fault.not_wellFormed, fault⟩
    · rintro ⟨read, c, rest, split, well, -, fault⟩
      exact ⟨read, c, rest, split, well, fault⟩

end ConditionSet
end PolicyAttachment
