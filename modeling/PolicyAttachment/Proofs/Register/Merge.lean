import PolicyAttachment.Proofs.Register.Reload

/-!
# Merging with room to spare

With room for everything that is seen of others beside our own entries, `mergeForeign` has a closed
form, `Entry.reconciled`: our own entries and those that are still seen stay where they are, these
with what was seen, and the new ones follow. It tells exactly whether the entries changed, since
what it takes out is not seen and so never comes back, and what it puts in place is not replaced
again.
-/

namespace PolicyAttachment
set_option autoImplicit false

namespace Entry

/-- The entries of ours and those that `fs` has as well, the latter as `fs` has them, each in its
place, and then the rest of `fs` in order. -/
def reconciled (ours : ControllerName) (fs es : List Entry) : List Entry :=
  ((es.filter fun e => !e.isByOther ours || fs.any (·.describesSame e)).map fun e =>
      (fs.find? (·.describesSame e)).getD e) ++
    fs.filter fun f => !es.any (·.describesSame f)

section Room

variable {ours : ControllerName} {seen es : List Entry}

theorem distinct_iff_pairwise :
    Distinct es ↔ es.Pairwise fun a b => a.describesSame b = false := by
  rw [Distinct, List.Nodup, List.pairwise_map]
  apply List.Pairwise.iff
  intro a b
  rw [← Bool.not_eq_true, describesSame_iff]

/-- Among distinct entries the search for one finds it. -/
theorem Distinct.find?_describesSame (h : Distinct es) {f : Entry} (hf : f ∈ es) :
    es.find? (·.describesSame f) = some f := by
  simp only [describesSame_eq]
  exact find?_of_nodup_map h hf

theorem dropUnseen_eq (fs es : List Entry) :
    dropUnseen ours fs es =
      es.filter fun e => !e.isByOther ours || fs.any (·.describesSame e) := by
  unfold dropUnseen
  congr 1
  funext e
  rw [Bool.not_and, Bool.not_not]

theorem updated_eq (fs : List Entry) (e : Entry) :
    updated fs e = (fs.find? (·.describesSame e)).getD e := by
  simp only [updated, describesSame_eq]

/-- What stays has an entry for whatever is seen and was there before. -/
theorem label_mem_dropUnseen_iff {f : Entry} (hf : f ∈ foreign ours seen) :
    f.label ∈ (dropUnseen ours (foreign ours seen) es).map label ↔
      es.any (·.describesSame f) = true := by
  rw [List.mem_map, List.any_eq_true]
  constructor
  · rintro ⟨e, he, hl⟩
    exact ⟨e, (mem_dropUnseen_iff.1 he).1, describesSame_iff.2 hl⟩
  · rintro ⟨e, he, same⟩
    have hl := describesSame_iff.1 same
    exact ⟨e, mem_dropUnseen_iff.2 ⟨he, fun _ => ⟨f, hf, hl.symm⟩⟩, hl⟩

/-- With room for all that is seen, a merge leaves nothing out. -/
theorem merged_eq_reconciled (hes : Distinct es) (hseen : Distinct (foreign ours seen))
    (room : (own ours es).length + (foreign ours seen).length ≤ maxAncestors) :
    merged ours seen es = reconciled ours (foreign ours seen) es := by
  rw [merged_of_room hes hseen room, reconciled, ← dropUnseen_eq]
  congr 1
  · exact List.map_congr_left fun e _ => updated_eq _ e
  · apply List.filter_congr
    intro f hf
    rw [Bool.eq_iff_iff, decide_eq_true_eq, label_mem_dropUnseen_iff hf, Bool.not_eq_true',
      Bool.not_eq_true]

end Room

end Entry

namespace Register

open Entry

/-- The register was read from some entries and has gone through some operations since. -/
def Built (r : Register) : Prop :=
  ∃ es start ops, ofEntries es = .ok start ∧ (start.performAll ops).2 = r

/-- Every register that was read and worked on is sound. -/
theorem Built.sound {r : Register} (h : r.Built) : r.Sound := by
  obtain ⟨es, start, ops, read, rfl⟩ := h
  exact ((ofEntries_sound read).2.performAll ops).1

section Flag

variable {r : Register} {ours : ControllerName} {seen : List Entry}

/-- Only what is seen of others counts. -/
theorem mergeForeign_congr {seen' : List Entry} (h : foreign ours seen' = foreign ours seen) :
    r.mergeForeign ours seen' = r.mergeForeign ours seen := by
  unfold foreign at h
  simp only [mergeForeign, h]

/-- A merge that leaves the entries as they are has done nothing on the way: all that there is of
others is still seen, and all that is seen is there as it is. -/
theorem Sound.mergeForeign_fst_of_merged_eq (h : r.Sound) (hes : Distinct r.entries)
    (hseen : Distinct (foreign ours seen))
    (room : (own ours r.entries).length + (foreign ours seen).length ≤ maxAncestors)
    (same : merged ours seen r.entries = r.entries) : (r.mergeForeign ours seen).1 = false := by
  have stillSeen : foreign ours r.entries ⊆ foreign ours seen := by
    have := foreign_merged_subset hes hseen
    rwa [same] at this
  have there : foreign ours seen ⊆ r.entries := by
    have := (foreign_subset_merged_iff hes hseen (by rw [same]; exact h.bounded)).2 room
    rwa [same] at this
  have described : ∀ f ∈ foreign ours seen, f.label ∈ r.entries.map label :=
    fun f hf => List.mem_map_of_mem (there hf)
  rw [mergeForeign_of_covered fun e he => ⟨e, stillSeen he, describesSame_iff.2 rfl⟩,
    h.foldl_adopt_fst_eq_false_iff described]
  exact ⟨rfl, fun f hf => hes.find?_describesSame (there hf)⟩

/-- A merge is noted as a change exactly if it changed the entries. -/
theorem Sound.mergeForeign_fst_iff (h : r.Sound) (hes : Distinct r.entries)
    (hseen : Distinct (foreign ours seen))
    (room : (own ours r.entries).length + (foreign ours seen).length ≤ maxAncestors) :
    (r.mergeForeign ours seen).1 = true ↔ (r.mergeForeign ours seen).2.entries ≠ r.entries := by
  obtain ⟨-, entries, unchanged⟩ := h.mergeForeign ours seen
  rw [← Bool.not_eq_false, not_iff_not]
  constructor
  · intro down
    rw [unchanged down]
  · intro same
    exact h.mergeForeign_fst_of_merged_eq hes hseen room (entries ▸ same)

end Flag

/-- Where no two entries of a register describe the same, no two that are seen of others do, and
there is room for these beside our own, a merge reconciles the entries with what is seen of others,
whatever else is seen. The table of positions is exact afterwards, and the answer tells whether the
entries changed. -/
theorem Built.mergeForeign_reconciles {r : Register} (built : r.Built) (ours : ControllerName)
    (seen : List Entry) (apart : r.entries.Pairwise fun a b => a.describesSame b = false)
    (seenApart : (foreign ours seen).Pairwise fun a b => a.describesSame b = false)
    (room : (own ours r.entries).length + (foreign ours seen).length ≤ maxAncestors) :
    (r.mergeForeign ours seen).2.entries = reconciled ours (foreign ours seen) r.entries ∧
    (∀ seen', foreign ours seen' = foreign ours seen →
      r.mergeForeign ours seen' = r.mergeForeign ours seen) ∧
    (∀ key i, (r.mergeForeign ours seen).2.positions.get? key = some i ↔
      ∃ cs, (r.mergeForeign ours seen).2.entries[i]? = some (.known key cs)) ∧
    ((r.mergeForeign ours seen).1 = true ↔
      (r.mergeForeign ours seen).2.entries ≠ r.entries) := by
  have hes := distinct_iff_pairwise.2 apart
  have hseen := distinct_iff_pairwise.2 seenApart
  obtain ⟨sound, entries, -⟩ := built.sound.mergeForeign ours seen
  refine ⟨entries.trans (merged_eq_reconciled hes hseen room), fun _ => mergeForeign_congr, ?_,
    built.sound.mergeForeign_fst_iff hes hseen room⟩
  intro key i
  rw [sound.positions_iff, bind_key?_eq_some_iff]

namespace Sample

/-- What the writer of `odd` has to say now. -/
def odder : Entry := .verbatim ⟨(service "a").toParent, "mesh", [ready]⟩

/-- The odd entry is replaced in its place, the one of the other controller that is not seen any more
goes, ours stays whatever is seen of it and moves up, and a new one follows. -/
theorem mergeForeign_mixed : ∃ r : Register, r.Built ∧
    r.entries = [odd, .known ⟨service "b", mesh⟩ .empty, .known ⟨service "a", gateway⟩ accepted] ∧
    (r.mergeForeign gateway [.known ⟨service "c", mesh⟩ accepted, odder,
        .known ⟨service "a", gateway⟩ .empty]).1 = true ∧
    (r.mergeForeign gateway [.known ⟨service "c", mesh⟩ accepted, odder,
        .known ⟨service "a", gateway⟩ .empty]).2.entries =
      [odder, .known ⟨service "a", gateway⟩ accepted, .known ⟨service "c", mesh⟩ accepted] := by
  have built : Built (([odd, .known ⟨service "b", mesh⟩ .empty].foldl push empty).performAll
      [.put ⟨service "a", gateway⟩ accepted]).2 :=
    ⟨[odd, .known ⟨service "b", mesh⟩ .empty], _, _, rfl, rfl⟩
  obtain ⟨entries, -, -, changed⟩ := built.mergeForeign_reconciles gateway
    [.known ⟨service "c", mesh⟩ accepted, odder, .known ⟨service "a", gateway⟩ .empty]
    (by decide +kernel) (by decide +kernel) (by decide +kernel)
  refine ⟨_, built, by decide +kernel, ?_, entries.trans (by decide +kernel)⟩
  rw [changed, entries]
  decide +kernel

end Sample

end Register
end PolicyAttachment
