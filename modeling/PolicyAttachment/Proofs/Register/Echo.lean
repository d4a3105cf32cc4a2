import PolicyAttachment.Proofs.Register.Call
import PolicyAttachment.Proofs.Register.Reload
import PolicyAttachment.Proofs.Tracker.Conditions

/-!
# Seeing what was written

What was written for a register and for the conditions of a policy comes back without the fractions
of times. The register then has its own entries as they were and is written as before, unless two
entries of others are about the same: `Register.Resumable.takeOver_written`. The conditions are written
as before as well, and ours is among them as it was computed: `ConditionSet.toStored_merge_written`.
-/

namespace PolicyAttachment
set_option autoImplicit false

namespace Entry

/-- The reference under which an entry is stored. -/
def Label.ref : Label → ParentReference
  | known key => key.ancestor.toParent
  | verbatim _ ref => ref

theorem ancestorRef_toStatus (e : Entry) : e.toStatus.ancestorRef = e.label.ref := by
  cases e <;> rfl

section Echo

variable {ours : ControllerName} {es : List Entry}

theorem isByOther_ofStatus_written (e : Entry) :
    (ofStatus e.written).isByOther ours = e.isByOther ours := by
  rw [isByOther_ofStatus, controllerName_written, isByOther]

theorem foreign_map_ofStatus_written (es : List Entry) :
    foreign ours ((es.map written).map ofStatus) =
      (foreign ours es).map fun e => ofStatus e.written := by
  rw [foreign, foreign, List.map_map, List.filter_map]
  congr 1
  apply List.filter_congr
  intro e _
  exact isByOther_ofStatus_written e

/-- All that others have is seen again. -/
theorem dropUnseen_written (faithful : ∀ e ∈ es, e.Faithful) :
    dropUnseen ours (foreign ours ((es.map written).map ofStatus)) es = es := by
  rw [dropUnseen, List.filter_eq_self]
  intro e he
  cases other : e.isByOther ours with
  | false => rfl
  | true =>
    have seen : ofStatus e.written ∈ foreign ours ((es.map written).map ofStatus) := by
      rw [foreign_map_ofStatus_written]
      exact List.mem_map_of_mem (mem_foreign_iff.2 ⟨he, other⟩)
    have same : (ofStatus e.written).describesSame e = true :=
      describesSame_iff.2 (label_ofStatus_of_faithful (faithful e he))
    rw [Bool.true_and, Bool.not_not]
    exact List.any_eq_true.2 ⟨_, seen, same⟩

/-- What was last seen of an entry of others is what was written for it. Other entries stay. -/
theorem written_latest (faithful : ∀ e ∈ es, e.Faithful) (apart : Distinct (foreign ours es))
    {e : Entry} (he : e ∈ es) :
    (latest (foreign ours ((es.map written).map ofStatus)) e).written = e.written := by
  rw [latest, foreign_map_ofStatus_written]
  cases hf : (((foreign ours es).map fun e => ofStatus e.written).filter
      fun f => f.label = e.label).getLast? with
  | none => rfl
  | some f =>
    obtain ⟨hm, same⟩ := List.mem_filter.1 (List.mem_of_getLast? hf)
    obtain ⟨g, hg, rfl⟩ := List.mem_map.1 hm
    obtain ⟨hes, other⟩ := mem_foreign_iff.1 hg
    have label : g.label = e.label := by
      rw [← label_ofStatus_of_faithful (faithful g hes)]
      exact of_decide_eq_true same
    have mine : e ∈ foreign ours es :=
      mem_foreign_iff.2 ⟨he, (isByOther_of_label label).symm.trans other⟩
    obtain rfl := apart.eq_of_label hg mine label
    rw [Option.getD_some, written_ofStatus_of_faithful (faithful g hes)]

/-- Merging what was written leaves what would be written next. -/
theorem written_merged (faithful : ∀ e ∈ es, e.Faithful) (apart : Distinct (foreign ours es)) :
    (merged ours ((es.map written).map ofStatus) es).map written = es.map written := by
  have described : ∀ f ∈ foreign ours ((es.map written).map ofStatus), f.label ∈ es.map label := by
    intro f hf
    rw [foreign_map_ofStatus_written] at hf
    obtain ⟨e, he, rfl⟩ := List.mem_map.1 hf
    have hes := (mem_foreign_iff.1 he).1
    rw [label_ofStatus_of_faithful (faithful e hes)]
    exact List.mem_map_of_mem hes
  rw [merged, dropUnseen_written faithful, foldl_adoptInto_of_described described]
  apply List.ext_getElem?
  intro i
  rw [List.getElem?_map, List.getElem?_map, getElem?_refreshed, Option.map_map]
  apply Option.map_congr
  intro e he
  rw [Function.comp_apply]
  split
  · exact written_latest faithful apart (List.mem_of_getElem? he)
  · rfl

end Echo

end Entry

namespace Register

open Entry

variable {ours : ControllerName} {r : Register}

/-- The names and references that others than `ours` store are all different. -/
def ForeignApart (r : Register) (ours : ControllerName) : Prop :=
  ((r.toStatus.writtenByOthers ours).map fun a => (a.controllerName, a.ancestorRef)).Nodup

instance (r : Register) (ours : ControllerName) : Decidable (r.ForeignApart ours) :=
  inferInstanceAs (Decidable (List.Nodup _))

/-- Entries about the same are stored under one name and reference. -/
theorem ForeignApart.distinct (h : r.ForeignApart ours) : Distinct (foreign ours r.entries) := by
  have stored : (r.toStatus.writtenByOthers ours).map (fun a => (a.controllerName, a.ancestorRef)) =
      ((foreign ours r.entries).map label).map fun l => (l.writer, l.ref) := by
    rw [writtenByOthers_toStatus, List.map_map, List.map_map]
    apply List.map_congr_left
    intro e _
    simp only [Function.comp_apply, controllerName_toStatus, ancestorRef_toStatus, writer_label]
  rw [ForeignApart, stored] at h
  exact List.Nodup.of_map _ h

/-- A register that sees what was written for it keeps its own entries and is written as before, if
others have no two entries about the same. -/
theorem Resumable.takeOver_written (h : r.Resumable) (apart : r.ForeignApart ours) :
    own ours (r.takeOver ours ⟨r.entries.map Entry.written⟩).2.entries = own ours r.entries ∧
      (r.takeOver ours ⟨r.entries.map Entry.written⟩).2.entries.map Entry.written =
        r.entries.map Entry.written := by
  refine ⟨h.sound.own_takeOver ours _, ?_⟩
  rw [(takeOver_eq h.sound ours _).2]
  exact written_merged h.faithful apart.distinct

end Register

namespace ConditionSet

variable {s : ConditionSet} {c x : Condition}

/-- A condition of the type of one in a set is inserted in its place. -/
theorem withAttached_of_mem (h : x.type ∈ s.types) : s.withAttached x = s.replace x := by
  rw [withAttached, insert, dif_pos h]

/-- What is written for a set can be read again. -/
theorem toStored_readable_written (s : ConditionSet) :
    (readable (s.toStored.map StoredCondition.written)).toStored =
      s.toStored.map StoredCondition.written :=
  toStored_readable (legible_written_iff.2 (legible_toStored s))

/-- What is read under the type of a condition is what was written for it. -/
theorem written_of_mem_readable {d : Condition} (hc : c ∈ s.conditions)
    (hd : d ∈ (readable (s.toStored.map StoredCondition.written)).conditions)
    (type : d.type = c.type) : d.toStored.written = c.toStored.written := by
  have hm : d.toStored ∈ s.toStored.map StoredCondition.written := by
    rw [← toStored_readable_written]
    exact List.mem_map_of_mem hd
  obtain ⟨x, hx, written⟩ := List.mem_map.1 hm
  obtain ⟨e, he, rfl⟩ := List.mem_map.1 hx
  have sameType : e.type = c.type := (congrArg StoredCondition.type written).trans type
  have same : e = c := by
    have found := get?_of_mem he
    rw [sameType, get?_of_mem hc] at found
    exact (Option.some.inj found).symm
  rw [← written, StoredCondition.written_written, same]

/-- A set that sees what was written for it is written as before, and our condition is in it as it
was. -/
theorem toStored_merge_written (s : ConditionSet) :
    (s.merge (s.toStored.map StoredCondition.written)).toStored.map StoredCondition.written =
        s.toStored.map StoredCondition.written ∧
      ∀ c, s.get? attachedType = some c →
        c ∈ (s.merge (s.toStored.map StoredCondition.written)).conditions := by
  have stored := s.toStored_readable_written
  have settled := StoredCondition.map_written_written s.toStored
  unfold merge
  cases hget : s.get? attachedType with
  | none => exact ⟨by rw [stored, settled], fun c hc => nomatch hc⟩
  | some c =>
    obtain ⟨hc, -⟩ := get?_eq_some_iff.1 hget
    refine ⟨?_, fun d hd => Option.some.inj hd ▸ mem_withAttached _ c⟩
    have replaced := fun d hd type => (written_of_mem_readable (d := d) hc hd type).symm
    generalize readable (s.toStored.map StoredCondition.written) = seen at stored replaced
    have present : c.type ∈ seen.types := by
      rw [← types_toStored, stored, List.map_map]
      exact List.mem_map.2 ⟨c.toStored, List.mem_map_of_mem hc, rfl⟩
    rw [← settled, ← stored]
    simp only [withAttached_of_mem present, toStored, replace, mapKeepingType, List.map_map]
    apply List.map_congr_left
    intro d hd
    simp only [Function.comp_apply]
    split
    · rename_i type
      exact replaced d hd type
    · rfl

/-- Computing anew what a set says already changes nothing, since it has no other condition of the
type. -/
theorem inheritTimes_withAttached_of_saysSame (hc : c ∈ s.conditions) (same : c.SaysSame x) :
    (s.withAttached x).inheritTimes s = s := by
  have present : x.type ∈ s.types := same.type ▸ List.mem_map_of_mem hc
  apply inheritTimes_eq_previous
  rw [withAttached_of_mem present, replace, mapKeepingType, List.forall₂_map_right_iff,
    List.forall₂_same]
  intro d hd
  split
  · rename_i type
    have found := get?_of_mem hc
    rw [same.type, ← type, get?_of_mem hd] at found
    rwa [Option.some.inj found]
  · exact d.saysSame_refl

end ConditionSet
end PolicyAttachment
