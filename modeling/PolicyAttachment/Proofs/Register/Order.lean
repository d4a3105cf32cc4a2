import PolicyAttachment.Proofs.Register.Mirror

/-!
# The order of entries

A register has its entries in the order in which it learned of them, a stored list in the order that
its last writer gave them. Where a stored list is made up of our entries and of others' as they are
written, taking it over leaves the same entries, but in the order `arranged`. So what is written back
is what is stored exactly if this is the stored order.
-/

namespace PolicyAttachment
set_option autoImplicit false

namespace Entry

/-- The labels of a stored list, in order. -/
def labels (l : List AncestorStatus) : List Label := (l.map ofStatus).map label

/-- The order in which a register with the entries `es` has those of the stored list `l`: what it has
already in its own order, then what is new as it is stored. -/
def arranged (es : List Entry) (l : List AncestorStatus) : List Label :=
  ((es.map label).filter fun x => x ∈ labels l) ++ (labels l).filter fun x => x ∉ es.map label

/-- The stored list `l` is made up of the entries of `ours` in `es`, as they are written, and of
entries of others. -/
structure MadeUp (ours : ControllerName) (es : List Entry) (l : List AncestorStatus) : Prop where
  stored : ((l.filter fun a => a.controllerName == ours.text).map AncestorStatus.written).Perm
    ((own ours es).map written)
  normal : ∀ a ∈ l, (ofStatus a).written = a.written

section MadeUp

variable {ours : ControllerName} {es : List Entry} {l : List AncestorStatus} {e : Entry}

/-- What an entry is written as has its label. -/
theorem label_of_written (h : e.Faithful) {a : AncestorStatus} (ha : a.written = e.written) :
    (ofStatus a).label = e.label := by
  rw [← label_ofStatus_written, ha, label_ofStatus_of_faithful h]

theorem normal_of_written (h : e.Faithful) {a : AncestorStatus} (ha : a.written = e.written) :
    (ofStatus a).written = a.written := by
  rw [← written_ofStatus_written, ha, written_ofStatus_of_faithful h]

theorem mem_labels_iff {x : Label} : x ∈ labels l ↔ ∃ a ∈ l, (ofStatus a).label = x := by
  rw [labels, List.map_map, List.mem_map]
  rfl

/-- Every entry of ours is stored. -/
theorem MadeUp.exists_written (h : MadeUp ours es l) (he : e ∈ es)
    (mine : e.isByOther ours = false) : ∃ a ∈ l, a.written = e.written := by
  have hm : e.written ∈ (own ours es).map written :=
    List.mem_map_of_mem (mem_own_iff.2 ⟨he, mine⟩)
  obtain ⟨a, ha, heq⟩ := List.mem_map.1 (h.stored.mem_iff.2 hm)
  exact ⟨a, (List.mem_filter.1 ha).1, heq⟩

/-- Every stored entry of ours is one of those. -/
theorem MadeUp.label_mem (h : MadeUp ours es l) (faithful : ∀ e ∈ es, e.Faithful)
    {a : AncestorStatus} (ha : a ∈ l) (mine : a.controllerName = ours.text) :
    (ofStatus a).label ∈ es.map label := by
  have hm : a.written ∈
      (l.filter fun a => a.controllerName == ours.text).map AncestorStatus.written :=
    List.mem_map_of_mem (List.mem_filter.2 ⟨ha, beq_iff_eq.2 mine⟩)
  obtain ⟨e, he, heq⟩ := List.mem_map.1 (h.stored.mem_iff.1 hm)
  have hes := (mem_own_iff.1 he).1
  rw [label_of_written (faithful e hes) heq.symm]
  exact List.mem_map_of_mem hes

/-- Our entries and those of others are as many as are stored. -/
theorem MadeUp.crowd_eq (h : MadeUp ours es l) : crowd ours es l = l.length := by
  have ownStored : (own ours (l.map ofStatus)).length = (own ours es).length := by
    have hlen := h.stored.length_eq
    rw [List.length_map, List.length_map] at hlen
    rw [← hlen, own, List.filter_map, List.length_map]
    congr 1
    apply List.filter_congr
    intro a _
    simp only [Function.comp, isByOther_ofStatus, bne, Bool.not_not]
  have total := length_own_add_foreign ours (l.map ofStatus)
  rw [List.length_map] at total
  rw [crowd, others, ← ownStored]
  exact total

/-- What stays of a register is what is stored. -/
theorem MadeUp.map_label_dropUnseen (h : MadeUp ours es l) (faithful : ∀ e ∈ es, e.Faithful) :
    (dropUnseen ours (others ours l) es).map label =
      (es.map label).filter fun x => x ∈ labels l := by
  have kept : dropUnseen ours (others ours l) es =
      es.filter fun e => e.label ∈ labels l := by
    apply List.filter_congr
    intro e he
    rw [Bool.eq_iff_iff, decide_eq_true_eq, mem_labels_iff]
    cases hby : e.isByOther ours with
    | false =>
      obtain ⟨a, ha, heq⟩ := h.exists_written he hby
      simp only [Bool.false_and, Bool.not_false, true_iff]
      exact ⟨a, ha, label_of_written (faithful e he) heq⟩
    | true =>
      simp only [Bool.true_and, Bool.not_not, List.any_eq_true, describesSame_iff]
      constructor
      · rintro ⟨f, hf, hl⟩
        obtain ⟨a, ha, -, rfl⟩ := mem_others_iff.1 hf
        exact ⟨a, ha, hl⟩
      · rintro ⟨a, ha, hl⟩
        have other : (ofStatus a).isByOther ours = true := (isByOther_of_label hl).trans hby
        exact ⟨_, mem_others_iff.2 ⟨a, ha, isByOther_ofStatus_iff.1 other, rfl⟩, hl⟩
  rw [kept, List.filter_map]
  rfl

/-- What is new to a register is what it does not hold yet. -/
theorem MadeUp.map_label_new (h : MadeUp ours es l) (faithful : ∀ e ∈ es, e.Faithful) :
    ((others ours l).filter fun f =>
      f.label ∉ (dropUnseen ours (others ours l) es).map label).map label =
      (labels l).filter fun x => x ∉ es.map label := by
  have new : ((others ours l).filter fun f =>
      f.label ∉ (dropUnseen ours (others ours l) es).map label) =
      (l.map ofStatus).filter fun f => f.label ∉ es.map label := by
    rw [others, foreign, List.filter_filter]
    apply List.filter_congr
    intro f hf
    obtain ⟨a, ha, rfl⟩ := List.mem_map.1 hf
    have stored : (ofStatus a).label ∈ labels l := mem_labels_iff.2 ⟨a, ha, rfl⟩
    have kept := h.map_label_dropUnseen faithful
    rw [others, foreign] at kept
    rw [kept, Bool.eq_iff_iff, Bool.and_eq_true, decide_eq_true_eq, decide_eq_true_eq,
      List.mem_filter, decide_eq_true_eq]
    constructor
    · rintro ⟨absent, -⟩ hm
      exact absent ⟨hm, stored⟩
    · intro absent
      refine ⟨fun hm => absent hm.1, isByOther_ofStatus_iff.2 ?_⟩
      exact fun mine => absent (h.label_mem faithful ha mine)
  rw [new, labels, List.filter_map (f := label)]
  rfl

end MadeUp

/-- What is stored under a label. -/
def storedAs (l : List AncestorStatus) (x : Label) : Option AncestorStatus :=
  (l.find? fun a => (ofStatus a).label = x).map AncestorStatus.written

theorem storedAs_label {l : List AncestorStatus} (fit : Registrable l) {a : AncestorStatus}
    (ha : a ∈ l) : storedAs l (ofStatus a).label = some a.written := by
  have distinct := fit.distinct
  rw [Distinct, List.map_map] at distinct
  have found : (l.find? fun b => (ofStatus b).label = (ofStatus a).label) = some a :=
    find?_of_nodup_map distinct ha
  rw [storedAs, found, Option.map_some]

end Entry

namespace Register

open Entry

variable {ours : ControllerName} {l : List AncestorStatus} {r : Register}

/-- Taking over a list that is made up of our entries and others' leaves the same entries as are
stored, each as it is stored, in the order `arranged`. -/
theorem Proper.takeOver_of_madeUp (h : r.Proper) (fit : Registrable l)
    (made : MadeUp ours r.entries l) :
    (r.takeOver ours ⟨l⟩).2.entries.map label = arranged r.entries l ∧
    (r.takeOver ours ⟨l⟩).2.size = l.length ∧
    ∀ e ∈ (r.takeOver ours ⟨l⟩).2.entries, ∃ a ∈ l, a.written = e.written := by
  obtain ⟨-, entries⟩ := takeOver_eq h.sound ours l
  have hseen : Distinct (foreign ours (l.map Entry.ofStatus)) := fit.distinct.filter _
  have count := length_kept_add_length_new h.distinct hseen
  have crowd := made.crowd_eq
  have few := fit.few
  rw [Entry.crowd, others] at crowd
  have whole := merged_of_room h.distinct hseen (by omega)
  refine ⟨?_, ?_, ?_⟩
  · rw [entries, whole, List.map_append, map_label_updated]
    exact congrArg₂ _ (made.map_label_dropUnseen h.faithful) (made.map_label_new h.faithful)
  · rw [size, entries, whole, List.length_append, List.length_map]
    omega
  · intro e he
    rw [entries] at he
    have ofOthers : e ∈ others ours l → ∃ a ∈ l, a.written = e.written := by
      intro ho
      obtain ⟨a, ha, -, rfl⟩ := mem_others_iff.1 ho
      exact ⟨a, ha, (made.normal a ha).symm⟩
    cases hby : e.isByOther ours with
    | true =>
      exact ofOthers (foreign_merged_subset h.distinct hseen (mem_foreign_iff.2 ⟨he, hby⟩))
    | false =>
      rcases mem_of_mem_merged he with hm | hm
      · exact made.exists_written hm hby
      · exact ofOthers hm

/-- What is written back is what is stored exactly if the order is the same. -/
theorem Proper.map_written_eq_iff (h : r.Proper) (fit : Registrable l)
    (stored : ∀ e ∈ r.entries, ∃ a ∈ l, a.written = e.written) :
    r.entries.map Entry.written = l.map AncestorStatus.written ↔
      r.entries.map label = labels l := by
  constructor
  · intro same
    rw [← h.label_written, same, labels, List.map_map, List.map_map, List.map_map]
    exact List.map_congr_left fun a _ => label_ofStatus_written a
  · intro same
    have ofRegister : r.entries.map (fun e => some e.written) =
        (r.entries.map label).map (storedAs l) := by
      rw [List.map_map]
      apply List.map_congr_left
      intro e he
      obtain ⟨a, ha, hw⟩ := stored e he
      rw [Function.comp, ← label_of_written (h.faithful e he) hw, storedAs_label fit ha, hw]
    have ofStored : l.map (fun a => some a.written) = (labels l).map (storedAs l) := by
      rw [labels, List.map_map, List.map_map]
      exact List.map_congr_left fun a ha => (storedAs_label fit ha).symm
    have boxed : (r.entries.map Entry.written).map some = (l.map AncestorStatus.written).map some := by
      rw [List.map_map, List.map_map]
      exact ofRegister.trans ((congrArg (List.map (storedAs l)) same).trans ofStored.symm)
    exact List.map_injective_iff.2 (fun _ _ => Option.some.inj) boxed

end Register
end PolicyAttachment
