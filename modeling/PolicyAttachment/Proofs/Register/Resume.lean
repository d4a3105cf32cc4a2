import PolicyAttachment.Proofs.Register.Report
import PolicyAttachment.Proofs.Register.Stored

/-!
# Resuming a register

A controller that is restarted has only the stored status to go by. Whatever was done to a register,
what is written for it reads as the same register again: its known entries read as they are, and an
entry that is kept verbatim never comes to read. `Register.Reachable` lists what can be done,
`Register.Resumable` is what all of it keeps.
-/

namespace PolicyAttachment
set_option autoImplicit false

/-- Nothing of a condition is lost when it is stored. -/
theorem Condition.toStored_injective : Function.Injective Condition.toStored := by
  intro c d hcd
  have := congrArg Condition.ofStored? hcd
  rwa [Condition.ofStored?_toStored, Condition.ofStored?_toStored, Option.some.injEq] at this

namespace ConditionSet

theorem toStored_inj {s t : ConditionSet} (h : s.toStored = t.toStored) : s = t :=
  ext_conditions (List.map_injective_iff.2 Condition.toStored_injective h)

/-- A set is read back from its stored form. -/
theorem ofStored_toStored (s : ConditionSet) : ofStored s.toStored = .ok s := by
  obtain ⟨t, ht⟩ := exists_ofStored_iff.2 (legible_toStored s)
  rw [ht, toStored_inj (toStored_of_ofStored ht)]

end ConditionSet

namespace Entry

/-- An entry reads as what it was before it was put in its stored form. -/
theorem ofStatus_toStatus {e : Entry} (h : e.Faithful) : ofStatus e.toStatus = e := by
  cases e with
  | known key cs =>
    simp only [ofStatus, known?, toStatus, ControllerName.parse_text, ConditionSet.ofStored_toStored,
      AncestorRef.ofParent_toParent, Option.getD_some]
  | verbatim v =>
    rw [ofStatus, toStatus, h v rfl]
    rfl

/-- Entries that are written and read again are the same. -/
theorem map_ofStatus_toStatus {es : List Entry} (h : ∀ e ∈ es, e.Faithful) :
    (es.map toStatus).map ofStatus = es := by
  calc (es.map toStatus).map ofStatus = es.map (ofStatus ∘ toStatus) := List.map_map
    _ = es.map id := List.map_congr_left fun e he => ofStatus_toStatus (h e he)
    _ = es := List.map_id es

end Entry

namespace Register

open Entry

/-- Taking over what others stored leaves our own entries as they are. -/
theorem Sound.own_takeOver {r : Register} (h : r.Sound) (ours : ControllerName)
    (status : StatusByAncestor) : own ours (r.takeOver ours status).2.entries = own ours r.entries := by
  rw [takeOver, (h.mergeForeign ours _).2.1, own_merged]

/-- The registers that come of an empty or a stored one by recording reports of any controllers,
withdrawing them, and taking over what others stored. -/
inductive Reachable : Register → Prop where
  | empty : Reachable empty
  | loaded {r : Register} (status : StatusByAncestor) (h : ofStatus status = .ok r) : Reachable r
  | reported {r r' : Register} (h : Reachable r) (controller : ControllerName)
      (ancestor : AncestorRef) (conditions : ConditionSet) (how : Recorded)
      (ok : r.report controller ancestor conditions = .ok (how, r')) : Reachable r'
  | recorded {r r' : Register} (h : Reachable r) (report : Report) (how : Recorded)
      (ok : r.record report = .ok (how, r')) : Reachable r'
  | withdrawn {r : Register} (h : Reachable r) (controller : ControllerName)
      (ancestor : AncestorRef) : Reachable (r.withdraw controller ancestor).2
  | withdrawnExcept {r : Register} (h : Reachable r) (controller : ControllerName)
      (keep : AncestorRef → Bool) : Reachable (r.withdrawExcept controller keep).2
  | tookOver {r : Register} (h : Reachable r) (ours : ControllerName) (status : StatusByAncestor) :
      Reachable (r.takeOver ours status).2

/-- What is needed to come back from the stored form. -/
structure Resumable (r : Register) : Prop where
  sound : r.Sound
  faithful : ∀ e ∈ r.entries, e.Faithful

namespace Resumable

variable {r r' : Register}

theorem ofStatus {status : StatusByAncestor} (h : ofStatus status = .ok r) : r.Resumable := by
  obtain ⟨entries, sound⟩ := ofEntries_sound h
  refine ⟨sound, ?_⟩
  intro e he
  rw [entries, List.mem_map] at he
  obtain ⟨a, -, rfl⟩ := he
  exact faithful_ofStatus a

/-- Recording never puts an entry in verbatim. -/
theorem put (h : r.Resumable) {key : EntryKey} {cs : ConditionSet} {how : Recorded}
    (ok : r.put key cs = .ok (how, r')) : r'.Resumable := by
  obtain ⟨sound, -, entries⟩ := h.sound.of_put ok
  refine ⟨sound, ?_⟩
  intro e he
  rcases entries with entries | entries
  · rw [entries, List.mem_map] at he
    obtain ⟨d, hd, rfl⟩ := he
    unfold revise
    split
    · exact faithful_known key cs
    · exact h.faithful d hd
  · rw [entries, List.mem_append] at he
    rcases he with he | he
    · exact h.faithful e he
    · rw [List.mem_singleton.1 he]
      exact faithful_known key cs

/-- Taking out entries leaves only such as were there. -/
theorem filter (h : r.Resumable) {p : Entry → Bool} (sound : r'.Sound)
    (entries : r'.entries = r.entries.filter p) : r'.Resumable := by
  refine ⟨sound, ?_⟩
  intro e he
  rw [entries] at he
  exact h.faithful e (List.mem_filter.1 he).1

/-- What is taken over is known if it reads. -/
theorem takeOver (h : r.Resumable) (ours : ControllerName) (status : StatusByAncestor) :
    (r.takeOver ours status).2.Resumable := by
  obtain ⟨sound, entries, -⟩ := h.sound.mergeForeign ours
    ((status.ancestors.filter fun entry => entry.controllerName != ours.text).map Entry.ofStatus)
  refine ⟨sound, ?_⟩
  intro e he
  rw [Register.takeOver, entries] at he
  rcases mem_of_mem_merged he with he | he
  · exact h.faithful e he
  · obtain ⟨a, -, rfl⟩ := List.mem_map.1 (List.mem_filter.1 he).1
    exact faithful_ofStatus a

/-- A review leaves what is kept verbatim as it is. -/
theorem reviewed (h : r.Resumable) {ours : ControllerName} {c : AncestryEntry → Condition}
    {es : List AncestryEntry} {left : List Target}
    (reviewed : Review.Reviewed ours c es r r' left) : r'.Resumable where
  sound := reviewed.sound
  faithful e he v hv := by
    subst hv
    have hm := mem_unread_iff.2 he
    rw [reviewed.unread] at hm
    exact h.faithful _ (mem_unread_iff.1 hm) v rfl

end Resumable

/-- Every reachable register can be resumed. -/
theorem Reachable.resumable {r : Register} (h : r.Reachable) : r.Resumable := by
  induction h with
  | empty => exact ⟨sound_empty, fun e he => absurd he List.not_mem_nil⟩
  | loaded status h => exact .ofStatus h
  | reported _ controller ancestor conditions how ok ih => exact ih.put (report_eq_ok_iff.1 ok)
  | recorded _ report how ok ih => exact ih.put (report_eq_ok_iff.1 ok)
  | withdrawn _ controller ancestor ih =>
    obtain ⟨sound, entries⟩ := ih.sound.withdraw controller ancestor
    exact ih.filter sound entries
  | withdrawnExcept _ controller keep ih =>
    obtain ⟨sound, entries⟩ := ih.sound.withdrawExcept controller keep
    exact ih.filter sound entries
  | tookOver _ ours status ih => exact ih.takeOver ours status

/-- Reading what is written for a register gives the same entries in the same order, each of them
known or kept verbatim as it was, at the same positions. -/
theorem Reachable.resumes {r : Register} (h : r.Reachable) :
    ∃ r', ofStatus r.toStatus = .ok r' ∧ r'.entries = r.entries ∧
      ∀ key, r'.positions.get? key = r.positions.get? key := by
  have resumable := h.resumable
  have same : r.toStatus.ancestors.map Entry.ofStatus = r.entries :=
    map_ofStatus_toStatus resumable.faithful
  obtain ⟨r', hr'⟩ := exists_ofEntries resumable.sound.nodup_keys resumable.sound.bounded
  obtain ⟨entries, sound⟩ := ofEntries_sound hr'
  refine ⟨r', by rw [ofStatus, same, hr'], entries, ?_⟩
  intro key
  apply Option.ext
  intro i
  rw [sound.positions_iff, resumable.sound.positions_iff, entries]

namespace Sample

/-- An entry that reads, and one whose condition has an odd status. -/
def storedStatus : StatusByAncestor where
  ancestors :=
    [⟨⟨none, none, none, "g", none, none⟩, "example.net/mesh", []⟩,
      ⟨⟨none, none, none, "g", none, none⟩, "example.net/gateway",
        [⟨"Accepted", "Maybe", "", "", ⟨0, 0⟩, none⟩]⟩]

def reportKey : EntryKey :=
  ⟨⟨"", "Service", some "ns", "a", none, none⟩, ⟨"example.org/gateway", rfl⟩⟩

/-- One report is added to a stored status with an entry that is kept verbatim. -/
theorem resumes_reported :
    ∃ r r' : Register, r.Reachable ∧ r.entries.map Entry.key? =
        [some ⟨⟨gatewayGroup, "Gateway", none, "g", none, none⟩, ⟨"example.net/mesh", rfl⟩⟩, none,
          some reportKey] ∧
      ofStatus r.toStatus = .ok r' ∧ r'.entries = r.entries := by
  have loaded : ofStatus storedStatus =
      .ok ((storedStatus.ancestors.map Entry.ofStatus).foldl push empty) := rfl
  have reachable := (Reachable.loaded storedStatus loaded).reported reportKey.controller
    reportKey.ancestor .empty .inserted rfl
  obtain ⟨r', reads, entries, -⟩ := Reachable.resumes reachable
  exact ⟨_, r', reachable, by decide, reads, entries⟩

end Sample

end Register
end PolicyAttachment
