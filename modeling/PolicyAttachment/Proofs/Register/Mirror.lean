import PolicyAttachment.Proofs.Register.Resume

/-!
# What a register holds of others

Whenever the stored list is seen, a register takes over the entries of others from it, and reviews in
between leave these alone: `Mirrors`. Entries of others that found no room are missing, so the list
that is written back keeps those of others exactly if there was room for them beside ours,
`Mirrors.keepsOthers_written_iff`.
-/

namespace PolicyAttachment
set_option autoImplicit false

namespace Entry

/-- What others than `ours` have in a stored list. -/
def others (ours : ControllerName) (l : List AncestorStatus) : List Entry :=
  foreign ours (l.map ofStatus)

/-- How many entries those of ours in `es` and those of others in `l` are together. -/
def crowd (ours : ControllerName) (es : List Entry) (l : List AncestorStatus) : Nat :=
  (own ours es).length + (others ours l).length

end Entry

/-- Every entry that others than `ours` have in `l` is alike in `l'`. -/
def KeepsOthers (ours : ControllerName) (l l' : List AncestorStatus) : Prop :=
  ∀ a ∈ l, a.controllerName ≠ ours.text → ∃ b ∈ l', b.Alike a

instance (ours : ControllerName) (l l' : List AncestorStatus) : Decidable (KeepsOthers ours l l') :=
  inferInstanceAs (Decidable (∀ a ∈ l, a.controllerName ≠ ours.text → ∃ b ∈ l', b.Alike a))

/-- The entries of a stored list can be those of a register. -/
structure Registrable (l : List AncestorStatus) : Prop where
  few : l.length ≤ maxAncestors
  distinct : Entry.Distinct (l.map Entry.ofStatus)

/-- The entries of a stored list can be those of a register, and others have no two about one
ancestor. -/
structure Tidy (ours : ControllerName) (l : List AncestorStatus) : Prop extends Registrable l where
  single : ∀ a ∈ l, ∀ b ∈ l, a.controllerName ≠ ours.text → a.identity = b.identity → a = b

namespace Register

/-- The register is sound, no two entries describe the same, and those kept verbatim do not read. -/
structure Proper (r : Register) : Prop where
  sound : r.Sound
  distinct : Entry.Distinct r.entries
  faithful : ∀ e ∈ r.entries, e.Faithful

/-- What `r` holds of others is part of what they have in the stored list `l`, and all of it if the
`crowd` fits. -/
structure Mirrors (ours : ControllerName) (l : List AncestorStatus) (crowd : Nat)
    (r : Register) : Prop extends Proper r where
  subset : Entry.foreign ours r.entries ⊆ Entry.others ours l
  complete : Entry.others ours l ⊆ r.entries ↔ crowd ≤ maxAncestors

end Register

section Lists

open Entry

variable {ours : ControllerName} {l l' : List AncestorStatus}

theorem isByOther_ofStatus_iff {a : AncestorStatus} :
    (ofStatus a).isByOther ours = true ↔ a.controllerName ≠ ours.text := by
  rw [isByOther_ofStatus, bne_iff_ne]

theorem mem_others_iff {e : Entry} :
    e ∈ others ours l ↔ ∃ a ∈ l, a.controllerName ≠ ours.text ∧ ofStatus a = e := by
  rw [others, mem_foreign_iff, List.mem_map]
  constructor
  · rintro ⟨⟨a, ha, rfl⟩, other⟩
    exact ⟨a, ha, isByOther_ofStatus_iff.1 other, rfl⟩
  · rintro ⟨a, ha, other, rfl⟩
    exact ⟨⟨a, ha, rfl⟩, isByOther_ofStatus_iff.2 other⟩

/-- Looking at the entries of others alone makes no difference to what they have. -/
theorem foreign_filter_others (l : List AncestorStatus) :
    foreign ours ((l.filter fun a => a.controllerName != ours.text).map ofStatus) =
      others ours l := by
  rw [others, foreign, foreign, List.filter_map, List.filter_map, List.filter_filter]
  congr 1
  apply List.filter_congr
  intro a _
  simp only [Function.comp, isByOther_ofStatus, Bool.and_self]

theorem controllerName_of_identity {a b : AncestorStatus} (h : a.identity = b.identity) :
    a.controllerName = b.controllerName :=
  congrArg Prod.snd h

/-- Others have no two entries about one ancestor if all their identities differ. -/
theorem single_of_nodup
    (h : ((l.filter fun a => a.controllerName != ours.text).map AncestorStatus.identity).Nodup) :
    ∀ a ∈ l, ∀ b ∈ l, a.controllerName ≠ ours.text → a.identity = b.identity → a = b := by
  intro a ha b hb other same
  refine List.inj_on_of_nodup_map h (List.mem_filter.2 ⟨ha, bne_iff_ne.2 other⟩)
    (List.mem_filter.2 ⟨hb, bne_iff_ne.2 ?_⟩) same
  rwa [← controllerName_of_identity same]

/-- A short list with differing identities can be that of a register. -/
theorem registrable_of_nodup (few : l.length ≤ maxAncestors)
    (h : (l.map AncestorStatus.identity).Nodup) : Registrable l :=
  ⟨few, distinct_of_identity h⟩

theorem tidy_of_nodup (few : l.length ≤ maxAncestors)
    (h : (l.map AncestorStatus.identity).Nodup) : Tidy ours l where
  toRegistrable := registrable_of_nodup few h
  single := single_of_nodup ((List.filter_sublist.map _).nodup h)

/-- Another writer leaves a list tidy that keeps our entries, if it has few entries and differing
ones of others. -/
theorem Tidy.written (h : Tidy ours l) (few : l'.length ≤ maxAncestors)
    (own : (l'.filter fun a => a.controllerName == ours.text).Perm
      (l.filter fun a => a.controllerName == ours.text))
    (others : ((l'.filter fun a => a.controllerName != ours.text).map
      AncestorStatus.identity).Nodup) : Tidy ours l' where
  few := few
  single := single_of_nodup others
  distinct := by
    have split := (List.filter_append_perm (fun a => a.controllerName == ours.text) l').symm
    have labels := (split.map ofStatus).map label
    rw [Distinct, labels.nodup_iff, List.map_append, List.map_append, List.nodup_append]
    refine ⟨?_, distinct_of_identity others, ?_⟩
    · rw [((own.map ofStatus).map label).nodup_iff]
      exact (((List.filter_sublist.map _).map _).nodup h.distinct)
    · intro x hx y hy hxy
      obtain ⟨e, he, rfl⟩ := List.mem_map.1 hx
      obtain ⟨a, ha, rfl⟩ := List.mem_map.1 he
      obtain ⟨f, hf, rfl⟩ := List.mem_map.1 hy
      obtain ⟨b, hb, rfl⟩ := List.mem_map.1 hf
      have same := controllerName_of_identity (identity_of_label hxy)
      have ownEntry := (List.mem_filter.1 ha).2
      have otherEntry := (List.mem_filter.1 hb).2
      rw [beq_iff_eq] at ownEntry
      rw [Bool.not_eq_true', beq_eq_false_iff_ne] at otherEntry
      exact otherEntry (same.symm.trans ownEntry)

end Lists

namespace Register

open Entry

variable {ours : ControllerName} {l : List AncestorStatus} {crowd : Nat} {r r' : Register}

/-- Taking over a stored list is merging its entries. -/
theorem takeOver_eq (h : r.Sound) (ours : ControllerName) (l : List AncestorStatus) :
    (r.takeOver ours ⟨l⟩).2.Sound ∧
    (r.takeOver ours ⟨l⟩).2.entries = merged ours (l.map Entry.ofStatus) r.entries := by
  obtain ⟨sound, entries, -⟩ := h.mergeForeign ours
    ((l.filter fun a => a.controllerName != ours.text).map Entry.ofStatus)
  refine ⟨sound, entries.trans ?_⟩
  rw [merged, merged, foreign_filter_others, others]

/-- A register that was just read. -/
theorem proper_of_entries (fit : Registrable l) (h : r.Sound)
    (entries : r.entries = l.map Entry.ofStatus) : r.Proper where
  sound := h
  distinct := by
    rw [entries]
    exact fit.distinct
  faithful e he := by
    rw [entries] at he
    obtain ⟨a, -, rfl⟩ := List.mem_map.1 he
    exact faithful_ofStatus a

/-- A proper register stays so when it takes over what could be one. -/
theorem Proper.takeOver (h : r.Proper) (fit : Registrable l) (ours : ControllerName) :
    (r.takeOver ours ⟨l⟩).2.Proper := by
  obtain ⟨sound, entries⟩ := takeOver_eq h.sound ours l
  have hseen : Distinct (foreign ours (l.map Entry.ofStatus)) := fit.distinct.filter _
  refine ⟨sound, ?_, ?_⟩
  · rw [entries]
    exact h.distinct.merged hseen
  · intro e he
    rw [entries] at he
    rcases mem_of_mem_merged he with hm | hm
    · exact h.faithful e hm
    · obtain ⟨a, -, -, rfl⟩ := mem_others_iff.1 hm
      exact faithful_ofStatus a

theorem Proper.reviewed (h : r.Proper) {c : AncestryEntry → Condition} {es : List AncestryEntry}
    {left : List Target} (reviewed : Review.Reviewed ours c es r r' left) : r'.Proper where
  sound := reviewed.sound
  distinct := reviewed.distinct h.distinct
  faithful := (Resumable.reviewed ⟨h.sound, h.faithful⟩ reviewed).faithful

/-- What is written back has the labels of the register. -/
theorem Proper.label_written (h : r.Proper) :
    ((r.entries.map Entry.written).map Entry.ofStatus).map label = r.entries.map label := by
  rw [List.map_map, List.map_map]
  exact List.map_congr_left fun e he => label_ofStatus_of_faithful (h.faithful e he)

/-- What is written back can be read as a register. -/
theorem Proper.registrable_written (h : r.Proper) : Registrable (r.entries.map Entry.written) where
  few := by
    rw [List.length_map]
    exact h.sound.bounded
  distinct := by
    rw [Distinct, h.label_written]
    exact h.distinct

/-- A register that was just read has all that is stored. -/
theorem mirrors_of_entries (fit : Registrable l) (h : r.Sound)
    (entries : r.entries = l.map Entry.ofStatus) :
    Mirrors ours l (Entry.crowd ours (l.map Entry.ofStatus) l) r where
  toProper := proper_of_entries fit h entries
  subset := by
    rw [entries]
    exact List.Subset.refl _
  complete := by
    rw [entries]
    refine iff_of_true (fun e he => (mem_foreign_iff.1 he).1) ?_
    rw [Entry.crowd, others, length_own_add_foreign, List.length_map]
    exact fit.few

/-- A register that took over what others have stored. -/
theorem Proper.mirrors_takeOver (h : r.Proper) (fit : Registrable l) (ours : ControllerName) :
    Mirrors ours l (Entry.crowd ours r.entries l) (r.takeOver ours ⟨l⟩).2 := by
  obtain ⟨sound, entries⟩ := takeOver_eq h.sound ours l
  have hseen : Distinct (foreign ours (l.map Entry.ofStatus)) := fit.distinct.filter _
  refine ⟨h.takeOver fit ours, ?_, ?_⟩
  · rw [entries]
    exact foreign_merged_subset h.distinct hseen
  · rw [entries]
    exact foreign_subset_merged_iff h.distinct hseen (entries ▸ sound.bounded)

/-- A review leaves what a register holds of others alone. -/
theorem Mirrors.reviewed (h : Mirrors ours l crowd r) {c : AncestryEntry → Condition}
    {es : List AncestryEntry} {left : List Target}
    (reviewed : Review.Reviewed ours c es r r' left) : Mirrors ours l crowd r' where
  toProper := h.toProper.reviewed reviewed
  subset := by
    rw [reviewed.others]
    exact h.subset
  complete := by
    rw [← h.complete]
    have byOther : ∀ es : List Entry, others ours l ⊆ es ↔ others ours l ⊆ foreign ours es := by
      intro es
      exact ⟨fun hs e he => mem_foreign_iff.2 ⟨hs he, (mem_foreign_iff.1 he).2⟩,
        fun hs e he => (mem_foreign_iff.1 (hs he)).1⟩
    rw [byOther, reviewed.others, ← byOther]

/-- What is held of others is stored, under the same name. -/
theorem Mirrors.exists_of_foreign (h : Mirrors ours l crowd r) {e : Entry} (he : e ∈ r.entries)
    (other : e.written.controllerName ≠ ours.text) :
    ∃ a ∈ l, a.controllerName ≠ ours.text ∧ Entry.ofStatus a = e := by
  refine mem_others_iff.1 (h.subset (mem_foreign_iff.2 ⟨he, ?_⟩))
  rw [isByOther, bne_iff_ne, ← controllerName_written]
  exact other

/-- What is written back keeps the entries of others exactly if there was room for them. -/
theorem Mirrors.keepsOthers_written_iff (h : Mirrors ours l crowd r) (tidy : Tidy ours l) :
    KeepsOthers ours l (r.entries.map Entry.written) ↔ crowd ≤ maxAncestors := by
  rw [← h.complete]
  constructor
  · intro keeps e he
    obtain ⟨a, ha, other, rfl⟩ := mem_others_iff.1 he
    obtain ⟨b, hb, alike⟩ := keeps a ha other
    obtain ⟨f, hf, rfl⟩ := List.mem_map.1 hb
    have writer := controllerName_of_identity alike.identity
    obtain ⟨a', ha', other', rfl⟩ := h.exists_of_foreign hf (writer ▸ other)
    have same := (alike_written_ofStatus a').identity.symm.trans alike.identity
    rwa [tidy.single a ha a' ha' other same.symm]
  · intro complete a ha other
    exact ⟨_, List.mem_map_of_mem (complete (mem_others_iff.2 ⟨a, ha, other, rfl⟩)),
      alike_written_ofStatus a⟩

/-- What is written back is tidy. -/
theorem Mirrors.tidy_written (h : Mirrors ours l crowd r) (tidy : Tidy ours l) :
    Tidy ours (r.entries.map Entry.written) where
  toRegistrable := h.toProper.registrable_written
  single b hb b' hb' other same := by
    obtain ⟨e, he, rfl⟩ := List.mem_map.1 hb
    obtain ⟨e', he', rfl⟩ := List.mem_map.1 hb'
    obtain ⟨a, ha, otherA, rfl⟩ := h.exists_of_foreign he other
    obtain ⟨a', ha', -, rfl⟩ :=
      h.exists_of_foreign he' (controllerName_of_identity same ▸ other)
    have identity := (alike_written_ofStatus a).identity.symm.trans
      (same.trans (alike_written_ofStatus a').identity)
    rw [tidy.single a ha a' ha' otherA identity]

end Register
end PolicyAttachment
