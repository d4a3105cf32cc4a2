import PolicyAttachment.Proofs.Register.Mirror

/-!
# One entry per ancestor and writer

The ancestors in a status are in effect a table with one entry per ancestor and writer. Known entries
have different keys, and what others have is part of a table that was stored. But an entry of ours that
does not read stays in the register as it was first stored, and beside it one that we report for the
same ancestor: by `Register.Carries.nodup_written_iff` this is the only way to two entries for one
ancestor and writer.
-/

namespace PolicyAttachment
set_option autoImplicit false

namespace Entry

/-- The ancestor that an entry is about, and its writer. -/
def identity (e : Entry) : AncestorRef × String := e.toStatus.identity

theorem identity_known (key : EntryKey) (cs : ConditionSet) :
    (known key cs).identity = (key.ancestor, key.controller.text) := rfl

theorem identity_ofStatus (a : AncestorStatus) : (ofStatus a).identity = a.identity :=
  (alike_written_ofStatus a).identity

theorem isByOther_of_identity {ours : ControllerName} {e f : Entry} (h : e.identity = f.identity) :
    e.isByOther ours = f.isByOther ours := by
  have writer : ∀ e : Entry, e.identity.2 = e.writer := by
    intro e
    cases e <;> rfl
  rw [isByOther, isByOther, ← writer, ← writer, h]

/-- Only entries of the same ancestor and writer have the same key. -/
theorem key_of_identity {key : EntryKey} {cs : ConditionSet} {a : AncestorRef}
    {controller : ControllerName} (h : (known key cs).identity = (a, controller.text)) :
    key = ⟨a, controller⟩ := by
  obtain ⟨ancestor, writer⟩ := key
  rw [identity_known, Prod.mk.injEq] at h
  obtain ⟨rfl, text⟩ := h
  exact congrArg (EntryKey.mk ancestor) (ControllerName.ext_text text)

/-- What is written for an entry reads exactly if the entry is known. -/
theorem isSome_known?_written {e : Entry} (h : e.Faithful) :
    (known? e.written).isSome ↔ ∃ key cs, e = known key cs := by
  cases e with
  | known key cs =>
    refine iff_of_true ?_ ⟨key, cs, rfl⟩
    have hlabel := label_ofStatus_of_faithful h
    rw [ofStatus] at hlabel
    cases hk : known? (known key cs).written with
    | some e => rfl
    | none =>
      rw [hk] at hlabel
      cases hlabel
  | verbatim v =>
    refine iff_of_false ?_ (by rintro ⟨key, cs, heq⟩; cases heq)
    rw [written, toStatus, known?_written.2 (h v rfl)]
    exact Bool.false_ne_true

/-- The entries of `ours` in a stored list that do not read. -/
def unreadable (ours : ControllerName) (l : List AncestorStatus) : List AncestorStatus :=
  l.filter fun a => a.controllerName = ours.text ∧ known? a = none

theorem unread_map_ofStatus (l : List AncestorStatus) :
    unread (l.map ofStatus) = l.filter fun a => known? a = none := by
  rw [unread, List.filterMap_map, ← List.filterMap_eq_filter]
  apply List.filterMap_congr
  intro a _
  rcases ofStatus_cases a with ⟨controller, cs, he, -⟩ | ⟨hk, he⟩
  · have hk : known? a ≠ none := by
      intro hk
      rw [ofStatus, hk] at he
      cases he
    simp [he, hk, verbatim?, Option.guard]
  · simp [he, hk, verbatim?, Option.guard]

/-- What is kept verbatim of ours is what is kept verbatim under our name. -/
theorem unread_own (ours : ControllerName) (es : List Entry) :
    unread (own ours es) = (unread es).filter fun v => v.controllerName = ours.text := by
  rw [unread, own, List.filterMap_filter, unread, List.filter_filterMap]
  apply List.filterMap_congr
  intro e _
  cases e with
  | known key cs => exact ite_self _
  | verbatim v => simp [isByOther, writer, verbatim?, Option.filter]

end Entry

namespace Register

open Entry

variable {ours : ControllerName} {first l : List AncestorStatus} {r r' : Register}

/-- The register was read from the entries `first`, and took over from `l` last: it mirrors what others
have there, and still carries the entries of ours that did not read at first. -/
structure Carries (ours : ControllerName) (first l : List AncestorStatus) (r : Register) : Prop where
  mirrors : ∃ crowd, r.Mirrors ours l crowd
  unread : Entry.unread (own ours r.entries) = unreadable ours first

/-- A register that was just read carries what does not read of the list. -/
theorem carries_of_entries (fit : Registrable l) (h : r.Sound)
    (entries : r.entries = l.map Entry.ofStatus) : r.Carries ours l l where
  mirrors := ⟨_, mirrors_of_entries fit h entries⟩
  unread := by
    rw [unread_own, entries, unread_map_ofStatus, List.filter_filter, unreadable]
    congr 1
    funext a
    rw [Bool.decide_and]

/-- Taking over another list touches only what others have. -/
theorem Carries.takeOver (h : r.Carries ours first l) {l' : List AncestorStatus}
    (fit : Registrable l') : (r.takeOver ours ⟨l'⟩).2.Carries ours first l' where
  mirrors := by
    obtain ⟨crowd, mirrors⟩ := h.mirrors
    exact ⟨_, mirrors.toProper.mirrors_takeOver fit ours⟩
  unread := by
    obtain ⟨crowd, mirrors⟩ := h.mirrors
    rw [mirrors.sound.own_takeOver ours ⟨l'⟩]
    exact h.unread

/-- A review touches only what is known of ours. -/
theorem Carries.reviewed (h : r.Carries ours first l) {c : AncestryEntry → Condition}
    {es : List AncestryEntry} {left : List Target}
    (reviewed : Review.Reviewed ours c es r r' left) : r'.Carries ours first l where
  mirrors := by
    obtain ⟨crowd, mirrors⟩ := h.mirrors
    exact ⟨crowd, mirrors.reviewed reviewed⟩
  unread := by
    rw [unread_own, reviewed.unread, ← unread_own]
    exact h.unread

section Unique

variable (hfirst : (first.map AncestorStatus.identity).Nodup)
  (hl : (l.map AncestorStatus.identity).Nodup)
include hfirst hl

/-- The stored lists being tables, two entries for one ancestor and writer are a known one of ours and
one that does not read. What others have is in the table `l`, what of ours does not read in the table
`first`, and known entries differ in their keys. -/
theorem Carries.eq_of_identity (h : r.Carries ours first l)
    (apart : ∀ a ∈ unreadable ours first, ∀ key cs, .known key cs ∈ r.entries →
      (Entry.known key cs).identity ≠ a.identity)
    {e f : Entry} (he : e ∈ r.entries) (hf : f ∈ r.entries) (same : e.identity = f.identity) :
    e = f := by
  obtain ⟨crowd, mirrors⟩ := h.mirrors
  by_cases other : e.isByOther ours = true
  · have other' : f.isByOther ours = true := isByOther_of_identity same ▸ other
    obtain ⟨a, ha, -, rfl⟩ := mem_others_iff.1 (mirrors.subset (mem_foreign_iff.2 ⟨he, other⟩))
    obtain ⟨b, hb, -, rfl⟩ := mem_others_iff.1 (mirrors.subset (mem_foreign_iff.2 ⟨hf, other'⟩))
    rw [identity_ofStatus, identity_ofStatus] at same
    rw [List.inj_on_of_nodup_map hl ha hb same]
  · have ownUnread : ∀ v, .verbatim v ∈ r.entries → (verbatim v).identity = e.identity →
        v ∈ unreadable ours first := by
      intro v hv heq
      rw [← h.unread, mem_unread_iff, mem_own_iff, isByOther_of_identity heq]
      exact ⟨hv, Bool.not_eq_true _ ▸ other⟩
    cases e with
    | known key cs =>
      cases f with
      | known key' cs' =>
        obtain rfl : key = key' := key_of_identity same
        rw [mirrors.sound.known_unique he hf]
      | verbatim v => exact absurd same (apart v (ownUnread v hf same.symm) key cs he)
    | verbatim v =>
      have hv := ownUnread v he rfl
      cases f with
      | known key cs => exact absurd same.symm (apart v hv key cs hf)
      | verbatim w =>
        have hw := ownUnread w hf same.symm
        rw [List.inj_on_of_nodup_map hfirst (List.mem_of_mem_filter hv) (List.mem_of_mem_filter hw)
          same]

/-- What is written has one entry per ancestor and writer exactly if what reads in it is about other
ancestors than the entries of ours that did not read at first. -/
theorem Carries.nodup_written_iff (h : r.Carries ours first l) :
    ((r.entries.map Entry.written).map AncestorStatus.identity).Nodup ↔
      ∀ a ∈ unreadable ours first, ∀ b ∈ r.entries.map Entry.written,
        (known? b).isSome → b.identity ≠ a.identity := by
  obtain ⟨crowd, mirrors⟩ := h.mirrors
  have distinct : r.entries.Nodup := List.Nodup.of_map label mirrors.distinct
  rw [List.map_map, List.nodup_map_iff_inj_on distinct]
  constructor
  · intro unique a ha b hb reads same
    obtain ⟨e, he, rfl⟩ := List.mem_map.1 hb
    obtain ⟨key, cs, rfl⟩ := (isSome_known?_written (mirrors.faithful e he)).1 reads
    rw [← h.unread, mem_unread_iff, mem_own_iff] at ha
    cases unique _ he _ ha.1 same
  · intro apart e he f hf same
    refine h.eq_of_identity hfirst hl ?_ he hf same
    intro a ha key cs hm
    exact apart a ha (Entry.known key cs).written (List.mem_map_of_mem hm)
      ((isSome_known?_written (faithful_known key cs)).2 ⟨key, cs, rfl⟩)

end Unique

/-- After a report is recorded, it has the only entry for its ancestor and writer exactly if there was
none that is kept verbatim. -/
theorem Sound.report_unique_iff (h : r.Sound) {controller : ControllerName} {a : AncestorRef}
    {cs : ConditionSet} {how : Recorded} (ok : r.report controller a cs = .ok (how, r')) :
    (r'.toStatus.ancestors.filter fun b => b.identity = (a, controller.text)).length = 1 ↔
      ∀ v ∈ Entry.unread r.entries, v.identity ≠ (a, controller.text) := by
  obtain ⟨sound, recorded, entries⟩ := h.of_put (report_eq_ok_iff.1 ok)
  have unread : Entry.unread r'.entries = Entry.unread r.entries := by
    rcases entries with entries | entries
    · rw [entries, unread_map_revise]
    · rw [entries, unread_append_known]
  rw [← unread, toStatus, List.filter_map, List.length_map]
  constructor
  · intro one v hv same
    obtain ⟨e, only⟩ := List.length_eq_one_iff.1 one
    have ofKnown : Entry.known ⟨a, controller⟩ (r.carried ⟨a, controller⟩ cs) ∈ [e] := by
      rw [← only]
      exact List.mem_filter.2 ⟨recorded, decide_eq_true rfl⟩
    have ofVerbatim : Entry.verbatim v ∈ [e] := by
      rw [← only]
      exact List.mem_filter.2 ⟨mem_unread_iff.1 hv, decide_eq_true same⟩
    rw [List.mem_singleton] at ofKnown ofVerbatim
    cases ofKnown.trans ofVerbatim.symm
  · intro none
    have inTable : (⟨a, controller⟩ : EntryKey) ∈ r'.entries.filterMap Entry.key? :=
      List.mem_filterMap.2 ⟨_, recorded, rfl⟩
    rw [← List.countP_eq_length_filter, ← List.count_eq_one_of_mem sound.nodup_keys inTable,
      List.count_filterMap]
    apply List.countP_congr
    intro e he
    simp only [Function.comp, decide_eq_true_eq, beq_iff_eq]
    cases e with
    | known key cs =>
      refine ⟨fun same => congrArg some (key_of_identity same), fun same => ?_⟩
      cases same
      rfl
    | verbatim v => exact iff_of_false (none v (mem_unread_iff.2 he)) (by simp)

end Register
end PolicyAttachment
