import PolicyAttachment.Proofs.Register.Foreign

/-!
# Entries as they are stored

What is written for an entry reads as the same entry again, but for the fractions of its times; what
does not read stays unreadable when it is written back. So an entry keeps its label through every
round of writing and reading, and a stored list is a register as soon as its entries are distinct and
few enough.
-/

namespace PolicyAttachment
set_option autoImplicit false

/-- Fractions are cut off once and for all. -/
theorem StoredCondition.written_written (c : StoredCondition) : c.written.written = c.written := by
  simp [written, Instant.truncated_truncated]

theorem StoredCondition.map_written_written (l : List StoredCondition) :
    (l.map written).map written = l.map written := by
  rw [List.map_map]
  exact List.map_congr_left fun c _ => c.written_written

namespace ConditionSet

/-- What a stored list has to be like to hold a condition set. -/
structure Legible (l : List StoredCondition) : Prop where
  known : ∀ c ∈ l, (Condition.ofStored? c).isSome
  distinct : (l.map StoredCondition.type).Nodup
  bounded : l.length ≤ maxConditions

theorem type_of_ofStored? {stored : StoredCondition} {c : Condition}
    (h : Condition.ofStored? stored = some c) : c.type = stored.type := by
  rw [← Condition.toStored_of_ofStored? h]
  rfl

/-- A condition that reads is added if its type is new and there is room. -/
theorem insertStored_eq {s : ConditionSet} {stored : StoredCondition} {c : Condition}
    (hc : Condition.ofStored? stored = some c) (fresh : c.type ∉ s.types)
    (room : s.size < maxConditions) : s.insertStored stored = .ok (s.append c fresh room) := by
  simp [insertStored, hc, insertNew, fresh, insert, room, Except.mapError]

theorem toStored_append {s : ConditionSet} {stored : StoredCondition} {c : Condition}
    (hc : Condition.ofStored? stored = some c) (fresh : c.type ∉ s.types)
    (room : s.size < maxConditions) :
    (s.append c fresh room).toStored = s.toStored ++ [stored] := by
  simp [toStored, append, Condition.toStored_of_ofStored? hc]

theorem types_toStored (s : ConditionSet) : s.toStored.map StoredCondition.type = s.types := by
  simp [toStored, types, Condition.toStored, Function.comp_def]

theorem length_toStored (s : ConditionSet) : s.toStored.length = s.size := by
  simp [toStored, size]

/-- A condition is added only if it is new and there is room. -/
theorem toStored_of_insertStored {s s' : ConditionSet} {stored : StoredCondition}
    (h : s.insertStored stored = .ok s') : s'.toStored = s.toStored ++ [stored] := by
  cases hc : Condition.ofStored? stored with
  | none =>
    simp only [insertStored, hc] at h
    cases h
  | some c =>
    by_cases fresh : c.type ∈ s.types
    · simp [insertStored, hc, insertNew, fresh] at h
    · by_cases room : s.size < maxConditions
      · rw [insertStored_eq hc fresh room] at h
        cases h
        exact toStored_append hc fresh room
      · simp [insertStored, hc, insertNew, fresh, insert, room, Except.mapError] at h

/-- A list that reads is the list that would be stored. -/
theorem toStored_of_foldlM {l : List StoredCondition} {s s' : ConditionSet}
    (h : l.foldlM insertStored s = .ok s') : s'.toStored = s.toStored ++ l := by
  induction l generalizing s with
  | nil =>
    cases h
    exact (List.append_nil _).symm
  | cons stored l ih =>
    rw [List.foldlM_cons] at h
    cases hi : s.insertStored stored with
    | error x =>
      rw [hi] at h
      cases h
    | ok s₁ =>
      rw [hi] at h
      rw [ih h, toStored_of_insertStored hi, List.append_assoc, List.singleton_append]

/-- A set that was read is written as it was stored. -/
theorem toStored_of_ofStored {l : List StoredCondition} {s : ConditionSet}
    (h : ofStored l = .ok s) : s.toStored = l := by
  have := toStored_of_foldlM h
  simpa [toStored, empty] using this

/-- What a set stores is legible. -/
theorem legible_toStored (s : ConditionSet) : Legible s.toStored where
  known c hc := by
    obtain ⟨d, -, rfl⟩ := List.mem_map.1 hc
    rw [Condition.ofStored?_toStored]
    rfl
  distinct := by
    rw [types_toStored]
    exact s.distinct
  bounded := by
    rw [length_toStored]
    exact s.bounded

/-- A legible list reads to its end. -/
theorem exists_foldlM {l : List StoredCondition} {s : ConditionSet}
    (h : Legible (s.toStored ++ l)) : ∃ s', l.foldlM insertStored s = .ok s' := by
  induction l generalizing s with
  | nil => exact ⟨s, rfl⟩
  | cons stored l ih =>
    obtain ⟨c, hc⟩ := Option.isSome_iff_exists.1 (h.known stored (by simp))
    have fresh : c.type ∉ s.types := by
      have distinct := h.distinct
      rw [List.map_append, List.nodup_append, types_toStored] at distinct
      intro hm
      exact distinct.2.2 c.type hm stored.type (by simp) (type_of_ofStored? hc)
    have room : s.size < maxConditions := by
      have := h.bounded
      rw [List.length_append, length_toStored, List.length_cons] at this
      omega
    rw [List.foldlM_cons, insertStored_eq hc fresh room]
    apply ih
    rwa [toStored_append hc fresh room, List.append_assoc, List.singleton_append]

/-- A list reads exactly if it is legible. -/
theorem exists_ofStored_iff {l : List StoredCondition} : (∃ s, ofStored l = .ok s) ↔ Legible l := by
  constructor
  · rintro ⟨s, hs⟩
    rw [← toStored_of_ofStored hs]
    exact legible_toStored s
  · exact fun h => exists_foldlM h

/-- Writing makes no difference to what can be read. -/
theorem legible_written_iff {l : List StoredCondition} :
    Legible (l.map StoredCondition.written) ↔ Legible l := by
  have known : ∀ c : StoredCondition,
      (Condition.ofStored? c.written).isSome = (Condition.ofStored? c).isSome := by
    intro c
    simp [Condition.ofStored?, StoredCondition.written]
  have types : (l.map StoredCondition.written).map StoredCondition.type =
      l.map StoredCondition.type := by
    rw [List.map_map]
    rfl
  constructor
  · intro h
    refine ⟨?_, types ▸ h.distinct, by simpa using h.bounded⟩
    intro c hc
    rw [← known]
    exact h.known _ (List.mem_map_of_mem hc)
  · intro h
    refine ⟨?_, types ▸ h.distinct, by simpa using h.bounded⟩
    intro c hc
    obtain ⟨d, hd, rfl⟩ := List.mem_map.1 hc
    rw [known]
    exact h.known d hd

end ConditionSet

namespace AncestorStatus

theorem written_written (a : AncestorStatus) : a.written.written = a.written := by
  simp [written, StoredCondition.written_written]

theorem map_written_written (l : List AncestorStatus) :
    (l.map written).map written = l.map written := by
  rw [List.map_map]
  exact List.map_congr_left fun a _ => a.written_written

/-- The ancestor with group and kind filled in, and the writer. -/
def identity (a : AncestorStatus) : AncestorRef × String :=
  (.ofParent a.ancestorRef, a.controllerName)

/-- Both entries say the same of the same ancestor for the same writer, up to a group and kind left
out and the fractions of times. -/
structure Alike (a b : AncestorStatus) : Prop where
  identity : a.identity = b.identity
  conditions : a.conditions.map StoredCondition.written = b.conditions.map StoredCondition.written

instance (a b : AncestorStatus) : Decidable (Alike a b) :=
  decidable_of_iff (a.identity = b.identity ∧
    a.conditions.map StoredCondition.written = b.conditions.map StoredCondition.written)
    ⟨fun h => ⟨h.1, h.2⟩, fun h => ⟨h.1, h.2⟩⟩

end AncestorStatus

namespace Entry

/-- The entry as it is written. -/
def written (e : Entry) : AncestorStatus := e.toStatus.written

theorem map_written_written (es : List Entry) :
    (es.map written).map AncestorStatus.written = es.map written := by
  rw [List.map_map]
  exact List.map_congr_left fun e _ => e.toStatus.written_written

/-- An entry kept verbatim is one that does not read. -/
def Faithful (e : Entry) : Prop := ∀ v, e = verbatim v → known? v = none

/-- A stored entry reads if the name of its writer and its conditions do. -/
theorem isSome_known?_iff {a : AncestorStatus} : (known? a).isSome ↔
    (∃ controller, ControllerName.parse a.controllerName = .ok controller) ∧
      ConditionSet.Legible a.conditions := by
  rw [← ConditionSet.exists_ofStored_iff]
  unfold known?
  cases hp : ControllerName.parse a.controllerName with
  | error x => simp
  | ok controller => cases hs : ConditionSet.ofStored a.conditions <;> simp

/-- What is read has the ancestor, the writer and the conditions that are stored. -/
theorem exists_of_known? {a : AncestorStatus} {e : Entry} (h : known? a = some e) :
    ∃ controller cs, e = known ⟨.ofParent a.ancestorRef, controller⟩ cs ∧
      controller.text = a.controllerName ∧ cs.toStored = a.conditions := by
  unfold known? at h
  split at h
  · rename_i controller cs hp hs
    cases h
    exact ⟨controller, cs, rfl, ControllerName.text_of_parse hp, ConditionSet.toStored_of_ofStored hs⟩
  · cases h

/-- Cutting off fractions does not make an entry read, nor the other way. -/
theorem known?_written {a : AncestorStatus} : known? a.written = none ↔ known? a = none := by
  rw [← Option.not_isSome_iff_eq_none, ← Option.not_isSome_iff_eq_none, isSome_known?_iff,
    isSome_known?_iff]
  show ¬ ((∃ controller, ControllerName.parse a.controllerName = .ok controller) ∧
    ConditionSet.Legible (a.conditions.map StoredCondition.written)) ↔ _
  rw [ConditionSet.legible_written_iff]

/-- Reading keeps verbatim only what does not read. -/
theorem faithful_ofStatus (a : AncestorStatus) : (ofStatus a).Faithful := by
  intro v hv
  unfold ofStatus at hv
  cases hk : known? a with
  | none =>
    rw [hk] at hv
    cases hv
    exact hk
  | some e =>
    obtain ⟨controller, cs, rfl, -⟩ := exists_of_known? hk
    rw [hk] at hv
    cases hv

theorem faithful_known (key : EntryKey) (cs : ConditionSet) : (known key cs).Faithful := by
  intro v hv
  cases hv

/-- A stored entry is either read, or kept verbatim. -/
theorem ofStatus_cases (a : AncestorStatus) :
    (∃ controller cs, ofStatus a = known ⟨.ofParent a.ancestorRef, controller⟩ cs ∧
      controller.text = a.controllerName ∧ cs.toStored = a.conditions) ∨
    (known? a = none ∧ ofStatus a = verbatim a) := by
  unfold ofStatus
  cases hk : known? a with
  | none => exact .inr ⟨rfl, rfl⟩
  | some e => exact .inl (exists_of_known? hk)

theorem writer_ofStatus (a : AncestorStatus) : (ofStatus a).writer = a.controllerName := by
  rcases ofStatus_cases a with ⟨controller, cs, he, htext, -⟩ | ⟨-, he⟩
  · rw [he]
    exact htext
  · rw [he]
    rfl

theorem controllerName_written (e : Entry) : e.written.controllerName = e.writer := by
  cases e <;> rfl

theorem isByOther_ofStatus (ours : ControllerName) (a : AncestorStatus) :
    (ofStatus a).isByOther ours = (a.controllerName != ours.text) := by
  rw [isByOther, writer_ofStatus]

/-- Cutting off fractions leaves the label. -/
theorem label_ofStatus_written (a : AncestorStatus) :
    (ofStatus a.written).label = (ofStatus a).label := by
  rcases ofStatus_cases a with ⟨controller, cs, he, htext, -⟩ | ⟨hk, he⟩
  · rcases ofStatus_cases a.written with ⟨controller', cs', he', htext', -⟩ | ⟨hk', -⟩
    · have : controller' = controller := ControllerName.ext_text (htext'.trans htext.symm)
      rw [he, he', this]
      rfl
    · rw [known?_written] at hk'
      rw [ofStatus, hk'] at he
      cases he
  · rw [he, ofStatus, known?_written.2 hk]
    rfl

/-- An entry that is written and read again has the label it had. -/
theorem label_ofStatus_of_faithful {e : Entry} (h : e.Faithful) :
    (ofStatus e.written).label = e.label := by
  rw [written, label_ofStatus_written]
  cases e with
  | known key cs =>
    obtain ⟨s, hs⟩ := ConditionSet.exists_ofStored_iff.2 (ConditionSet.legible_toStored cs)
    have hk : known? (known key cs).toStatus = some (known key s) := by
      simp only [known?, toStatus, ControllerName.parse_text, hs, AncestorRef.ofParent_toParent]
    rw [ofStatus, hk]
    rfl
  | verbatim v =>
    rw [ofStatus, toStatus, h v rfl]
    rfl

/-- What was read is written alike. -/
theorem alike_written_ofStatus (a : AncestorStatus) : (ofStatus a).written.Alike a := by
  rcases ofStatus_cases a with ⟨controller, cs, he, htext, hcs⟩ | ⟨-, he⟩
  · rw [he]
    refine ⟨?_, ?_⟩
    · simp [written, toStatus, AncestorStatus.written, AncestorStatus.identity, htext]
    · simp [written, toStatus, AncestorStatus.written, hcs, StoredCondition.written_written]
  · rw [he]
    refine ⟨rfl, ?_⟩
    simp [written, toStatus, AncestorStatus.written, StoredCondition.written_written]

/-- What an entry is written as once it was read: group and kind filled in if it reads, fractions
cut off. -/
theorem written_ofStatus (a : AncestorStatus) :
    (ofStatus a).written =
      { a.written with
        ancestorRef :=
          if (known? a).isSome then (AncestorRef.ofParent a.ancestorRef).toParent
          else a.ancestorRef } := by
  unfold ofStatus
  cases hk : known? a with
  | none => rfl
  | some e =>
    obtain ⟨controller, cs, rfl, htext, hcs⟩ := exists_of_known? hk
    simp [written, toStatus, AncestorStatus.written, htext, hcs]

/-- Fractions may be cut off before as well as after reading. -/
theorem written_ofStatus_written (a : AncestorStatus) :
    (ofStatus a.written).written = (ofStatus a).written := by
  have known : (known? a.written).isSome = (known? a).isSome := by
    rw [Bool.eq_iff_iff, ← not_iff_not, Option.not_isSome_iff_eq_none, Option.not_isSome_iff_eq_none,
      known?_written]
  rw [written_ofStatus, written_ofStatus, known, AncestorStatus.written_written]
  rfl

/-- What is written for an entry is what is written again once it is read. -/
theorem written_ofStatus_of_faithful {e : Entry} (h : e.Faithful) :
    (ofStatus e.written).written = e.written := by
  rw [show e.written = e.toStatus.written from rfl, written_ofStatus_written, written_ofStatus]
  cases e with
  | known key cs =>
    simp only [toStatus, AncestorStatus.written, AncestorRef.ofParent_toParent]
    congr 1
    exact ite_self _
  | verbatim v =>
    rw [toStatus, h v rfl]
    rfl

/-- Entries of one label are about one ancestor for one writer. -/
theorem identity_of_label {a b : AncestorStatus} (h : (ofStatus a).label = (ofStatus b).label) :
    a.identity = b.identity := by
  rcases ofStatus_cases a with ⟨controller, cs, ha, htext, -⟩ | ⟨-, ha⟩
  · rcases ofStatus_cases b with ⟨controller', cs', hb, htext', -⟩ | ⟨-, hb⟩
    · rw [ha, hb] at h
      simp only [label, Label.known.injEq, EntryKey.mk.injEq] at h
      rw [AncestorStatus.identity, AncestorStatus.identity, h.1, ← htext, ← htext', h.2]
    · rw [ha, hb] at h
      cases h
  · rcases ofStatus_cases b with ⟨controller', cs', hb, -⟩ | ⟨-, hb⟩
    · rw [ha, hb] at h
      cases h
    · rw [ha, hb] at h
      simp only [label, Label.verbatim.injEq] at h
      rw [AncestorStatus.identity, AncestorStatus.identity, h.1, h.2]

/-- Entries about different ancestors or by different writers are distinct. -/
theorem distinct_of_identity {l : List AncestorStatus}
    (h : (l.map AncestorStatus.identity).Nodup) : Distinct (l.map ofStatus) := by
  rw [Distinct, List.map_map]
  rw [List.Nodup, List.pairwise_map] at h ⊢
  exact h.imp fun hne hlabel => hne (identity_of_label hlabel)

/-- Entries that describe different things have different keys. -/
theorem Distinct.nodup_keys {es : List Entry} (h : Distinct es) : (es.filterMap key?).Nodup := by
  rw [Distinct, List.Nodup, List.pairwise_map] at h
  rw [List.Nodup, List.pairwise_filterMap]
  refine h.imp ?_
  intro a b hne key hkey key' hkey' heq
  obtain ⟨c, rfl⟩ := key?_eq_some_iff.1 hkey
  obtain ⟨d, rfl⟩ := key?_eq_some_iff.1 hkey'
  exact hne (congrArg Label.known heq)

end Entry

/-- A stored list is a register if its entries are distinct and few enough. -/
theorem Register.exists_ofStatus {l : List AncestorStatus}
    (distinct : Entry.Distinct (l.map Entry.ofStatus)) (few : l.length ≤ maxAncestors) :
    ∃ r, Register.ofStatus ⟨l⟩ = .ok r ∧ r.entries = l.map Entry.ofStatus ∧ r.Sound := by
  obtain ⟨r, hr⟩ := exists_ofEntries distinct.nodup_keys (by rwa [List.length_map])
  exact ⟨r, hr, ofEntries_sound hr⟩

end PolicyAttachment
