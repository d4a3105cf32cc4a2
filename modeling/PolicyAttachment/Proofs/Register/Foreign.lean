import PolicyAttachment.Proofs.Register.Sound
import Mathlib.Data.List.Perm.Subperm

/-!
# Merging the entries of other controllers

`mergeForeign` as an operation on lists: what is stale is filtered out, and the entries seen are
adopted one after the other. Where no two entries describe the same, its outcome has a closed form,
`foldl_adoptInto`: what was there stays in its place with what was seen, and what is new follows in
the order seen, as far as there is room. Our own entries are never touched.
-/

namespace PolicyAttachment
set_option autoImplicit false

namespace Entry

/-- What an entry is about: the key of a known one, writer and reference of a verbatim one. -/
inductive Label where
  | known (key : EntryKey)
  | verbatim (writer : String) (ref : ParentReference)
deriving DecidableEq

def label : Entry → Label
  | known key _ => .known key
  | verbatim v => .verbatim v.controllerName v.ancestorRef

def Label.writer : Label → String
  | known key => key.controller.text
  | verbatim writer _ => writer

theorem writer_label (e : Entry) : e.label.writer = e.writer := by
  cases e <;> rfl

/-- Entries describe the same exactly if they have one label. -/
theorem describesSame_iff {a b : Entry} : a.describesSame b = true ↔ a.label = b.label := by
  cases a <;> cases b <;> simp [describesSame, label]

theorem describesSame_eq (a b : Entry) : a.describesSame b = decide (a.label = b.label) := by
  rw [Bool.eq_iff_iff, describesSame_iff, decide_eq_true_eq]

theorem key?_of_label {a b : Entry} (h : a.label = b.label) : a.key? = b.key? := by
  cases a <;> cases b <;> simp_all [label, key?]

theorem isByOther_of_label {ours : ControllerName} {a b : Entry} (h : a.label = b.label) :
    a.isByOther ours = b.isByOther ours := by
  rw [isByOther, isByOther, ← writer_label, ← writer_label, h]

/-- Entries with an entry brought up to date: in the place of the first that describes the same, else
at the end while there is room. -/
def adoptInto (es : List Entry) (f : Entry) : List Entry :=
  match es.findIdx? (·.describesSame f) with
  | some i => es.set i f
  | none => if maxAncestors ≤ es.length then es else es ++ [f]

/-- The entries that `ours` wrote. -/
def own (ours : ControllerName) (es : List Entry) : List Entry := es.filter fun e => !e.isByOther ours

/-- The entries that others wrote. -/
def foreign (ours : ControllerName) (es : List Entry) : List Entry := es.filter (isByOther ours)

/-- Entries without those of other controllers that are no longer seen. -/
def dropUnseen (ours : ControllerName) (seen es : List Entry) : List Entry :=
  es.filter fun e => !(e.isByOther ours && !seen.any (·.describesSame e))

/-- Entries with those of other controllers brought up to date with the ones `seen`. -/
def merged (ours : ControllerName) (seen es : List Entry) : List Entry :=
  (foreign ours seen).foldl adoptInto (dropUnseen ours (foreign ours seen) es)

end Entry

namespace Register

open Entry

/-- Dropping what is stale filters the entries. -/
theorem Sound.dropStale {r : Register} (h : r.Sound) (stale : Entry → Bool) (i : Nat)
    (changed : Bool) :
    (r.dropStale stale i changed).2.Sound ∧
    (r.dropStale stale i changed).2.entries =
      r.entries.take i ++ (r.entries.drop i).filter (fun e => !stale e) ∧
    ((r.dropStale stale i changed).1 = false →
      changed = false ∧ (r.dropStale stale i changed).2 = r) := by
  fun_induction Register.dropStale stale r i changed with
  | case1 r i changed lt e he hs ih =>
    obtain ⟨sound, entries, same⟩ := ih (h.eraseAt i)
    obtain ⟨hlt, rfl⟩ := List.getElem?_eq_some_iff.1 he
    refine ⟨sound, ?_, fun hc => Bool.noConfusion (same hc).1⟩
    rw [entries, Register.eraseAt, List.drop_eq_getElem_cons hlt, List.filter_cons_of_neg (by simpa),
      List.eraseIdx_eq_take_drop_succ, List.take_append_of_le_length (by rw [List.length_take]; omega),
      List.take_take, Nat.min_self, List.drop_append_of_le_length (by rw [List.length_take]; omega),
      List.drop_eq_nil_of_le (List.length_take_le _ _), List.nil_append]
  | case2 r i changed lt e he hs ih =>
    obtain ⟨sound, entries, same⟩ := ih h
    obtain ⟨hlt, rfl⟩ := List.getElem?_eq_some_iff.1 he
    refine ⟨sound, ?_, same⟩
    rw [entries, List.drop_eq_getElem_cons hlt, List.filter_cons_of_pos (by simpa using hs),
      List.take_succ_eq_append_getElem hlt, List.append_assoc, List.singleton_append]
  | case3 r i changed lt he =>
    exact absurd lt (Nat.not_lt.2 (List.getElem?_eq_none_iff.1 he))
  | case4 r i changed ge =>
    have ge : r.entries.length ≤ i := Nat.not_lt.1 ge
    refine ⟨h, ?_, fun hc => ⟨hc, rfl⟩⟩
    rw [List.take_of_length_le ge, List.drop_eq_nil_of_le ge, List.filter_nil, List.append_nil]

/-- The table of positions finds the entry that describes the same as a known one. -/
theorem Sound.findIdx?_known {r : Register} (h : r.Sound) (key : EntryKey) (cs : ConditionSet) :
    r.entries.findIdx? (·.describesSame (.known key cs)) = (r.find? key).map (·.1) := by
  have same : ∀ e : Entry, e.describesSame (.known key cs) = true ↔ e.key? = some key := by
    intro e
    cases e <;> simp [describesSame, key?]
  cases hf : r.find? key with
  | none =>
    rw [Option.map_none, List.findIdx?_eq_none_iff]
    intro e he
    rw [← Bool.not_eq_true, same]
    intro hk
    obtain ⟨c, rfl⟩ := key?_eq_some_iff.1 hk
    exact h.find?_eq_none_iff.1 hf c he
  | some p =>
    obtain ⟨i, old⟩ := p
    obtain ⟨hlt, he⟩ := List.getElem?_eq_some_iff.1 (h.find?_eq_some_iff.1 hf)
    rw [Option.map_some, List.findIdx?_eq_some_iff_getElem]
    refine ⟨hlt, by rw [same, he, key?_known], ?_⟩
    intro j hj hs
    rw [same, key?_eq_some_iff] at hs
    obtain ⟨c, hc⟩ := hs
    have hj' : r.entries[j]? = some (.known key c) :=
      List.getElem?_eq_some_iff.2 ⟨Nat.lt_trans hj hlt, hc⟩
    have := h.position_unique hj' (h.find?_eq_some_iff.1 hf)
    omega

/-- The table of positions makes no difference to how an entry is adopted. -/
theorem Sound.adopt_eq {r : Register} (h : r.Sound) (changed : Bool) (f : Entry) :
    Register.adopt (changed, r) f =
      match r.entries.findIdx? (·.describesSame f) with
      | some i => if r.entries[i]? = some f then (changed, r) else (true, r.setAt i f)
      | none => if r.isFull then (changed, r) else (true, r.push f) := by
  cases f with
  | known key cs =>
    rw [h.findIdx?_known]
    simp only [Register.adopt, put]
    cases hf : r.find? key with
    | none =>
      simp only [Option.map_none]
      by_cases full : r.isFull = true
      · rw [if_pos full, if_pos full]
      · rw [if_neg full, if_neg full]
    | some p =>
      obtain ⟨i, old⟩ := p
      have hi := h.find?_eq_some_iff.1 hf
      simp only [Option.map_some, hi, Option.some.injEq, Entry.known.injEq, true_and]
      by_cases same : old = cs
      · rw [if_pos same, if_pos same]
      · rw [if_neg same, if_neg same]
  | verbatim v => rfl

/-- Adopting an entry brings the list up to date with it; the flag stays down only if nothing
changed. -/
theorem Sound.adopt {r : Register} (h : r.Sound) (changed : Bool) (f : Entry) :
    (Register.adopt (changed, r) f).2.Sound ∧
    (Register.adopt (changed, r) f).2.entries = adoptInto r.entries f ∧
    ((Register.adopt (changed, r) f).1 = false →
      changed = false ∧ (Register.adopt (changed, r) f).2 = r) := by
  rw [h.adopt_eq, adoptInto]
  cases hf : r.entries.findIdx? (·.describesSame f) with
  | none =>
    have fresh : ∀ k, f.key? = some k → ∀ c, .known k c ∉ r.entries := by
      intro k hk c hm
      obtain ⟨cs, rfl⟩ := key?_eq_some_iff.1 hk
      have apart := List.findIdx?_eq_none_iff.1 hf _ hm
      rw [← Bool.not_eq_true, describesSame_iff] at apart
      exact apart rfl
    by_cases full : maxAncestors ≤ r.size
    · have isFull : r.isFull = true := by rwa [Register.isFull, decide_eq_true_eq]
      simp only [isFull, if_true]
      exact ⟨h, (if_pos full).symm, fun hc => ⟨hc, trivial⟩⟩
    · have notFull : r.isFull = false := by rwa [Register.isFull, decide_eq_false_iff_not]
      simp only [notFull, Bool.false_eq_true, if_false]
      exact ⟨h.push (Nat.lt_of_not_le full) fresh, (if_neg full).symm, by simp⟩
  | some i =>
    obtain ⟨hlt, hs, -⟩ := List.findIdx?_eq_some_iff_getElem.1 hf
    have hi := List.getElem?_eq_getElem hlt
    by_cases same : r.entries[i]? = some f
    · simp only [same, if_true]
      rw [hi] at same
      refine ⟨h, ?_, fun hc => ⟨hc, trivial⟩⟩
      rw [← Option.some.inj same, List.set_getElem_self]
    · simp only [same, if_false]
      refine ⟨h.setAt ?_, rfl, by simp⟩
      rw [hi, Option.map_some, key?_of_label (describesSame_iff.1 hs)]

/-- Adopting entries one by one adopts them into the list. If no change is noted in the end, the
register is as it was. -/
theorem Sound.foldl_adopt {r : Register} (h : r.Sound) (changed : Bool) (fs : List Entry) :
    (fs.foldl Register.adopt (changed, r)).2.Sound ∧
    (fs.foldl Register.adopt (changed, r)).2.entries = fs.foldl adoptInto r.entries ∧
    ((fs.foldl Register.adopt (changed, r)).1 = false →
      changed = false ∧ (fs.foldl Register.adopt (changed, r)).2 = r) := by
  induction fs generalizing changed r with
  | nil => exact ⟨h, rfl, fun hc => ⟨hc, rfl⟩⟩
  | cons f fs ih =>
    obtain ⟨sound, entries, same⟩ := h.adopt changed f
    obtain ⟨sound', entries', same'⟩ := ih sound (Register.adopt (changed, r) f).1
    refine ⟨sound', by rw [List.foldl_cons, List.foldl_cons, ← entries]; exact entries', ?_⟩
    intro hc
    obtain ⟨hc', hr'⟩ := same' hc
    obtain ⟨hc'', hr''⟩ := same hc'
    exact ⟨hc'', hr'.trans hr''⟩

/-- Merging what others have stored is `merged` on the entries. -/
theorem Sound.mergeForeign {r : Register} (h : r.Sound) (ours : ControllerName)
    (seen : List Entry) :
    (r.mergeForeign ours seen).2.Sound ∧
    (r.mergeForeign ours seen).2.entries = merged ours seen r.entries ∧
    ((r.mergeForeign ours seen).1 = false → (r.mergeForeign ours seen).2 = r) := by
  unfold Register.mergeForeign
  obtain ⟨sound, entries, same⟩ := h.dropStale
    (fun e => e.isByOther ours && !(foreign ours seen).any (·.describesSame e)) 0 false
  obtain ⟨sound', entries', same'⟩ := sound.foldl_adopt
    (r.dropStale (fun e => e.isByOther ours &&
      !(foreign ours seen).any (·.describesSame e)) 0 false).1 (foreign ours seen)
  refine ⟨sound', ?_, ?_⟩
  · rw [entries] at entries'
    exact entries'
  · intro hc
    obtain ⟨hc', hr'⟩ := same' hc
    exact hr'.trans (same hc').2

end Register

namespace Entry

section Own

variable {ours : ControllerName}

theorem mem_own_iff {es : List Entry} {e : Entry} :
    e ∈ own ours es ↔ e ∈ es ∧ e.isByOther ours = false := by
  simp [own]

theorem mem_foreign_iff {es : List Entry} {e : Entry} :
    e ∈ foreign ours es ↔ e ∈ es ∧ e.isByOther ours = true := by
  simp [foreign]

theorem length_own_add_foreign (ours : ControllerName) (es : List Entry) :
    (own ours es).length + (foreign ours es).length = es.length := by
  rw [Nat.add_comm]
  exact (List.length_eq_length_filter_add (isByOther ours)).symm

theorem isByOther_known (key : EntryKey) (cs : ConditionSet) :
    (known key cs).isByOther ours = true ↔ key.controller ≠ ours := by
  rw [isByOther, bne_iff_ne]
  exact ⟨mt (congrArg ControllerName.text), mt ControllerName.ext_text⟩

theorem isByOther_known_self (a : AncestorRef) (ours : ControllerName) (cs : ConditionSet) :
    (known ⟨a, ours⟩ cs).isByOther ours = false := by
  rw [← Bool.not_eq_true, isByOther_known]
  exact fun hne => hne rfl

/-- Lists with the same entries of ours know the same of ours. -/
theorem known_mem_iff_of_own {es es' : List Entry} (h : own ours es' = own ours es) {a : AncestorRef}
    {cs : ConditionSet} : .known ⟨a, ours⟩ cs ∈ es' ↔ .known ⟨a, ours⟩ cs ∈ es := by
  have mine : ∀ es : List Entry, .known ⟨a, ours⟩ cs ∈ es ↔ .known ⟨a, ours⟩ cs ∈ own ours es := by
    intro es
    rw [mem_own_iff, and_iff_left (isByOther_known_self a ours cs)]
  rw [mine, h, ← mine]

/-- What the filter drops may be replaced with anything else that it drops. -/
theorem filter_set_of_neg {α : Type} {p : α → Bool} {l : List α} {i : Nat} {a b : α}
    (hi : l[i]? = some a) (ha : p a = false) (hb : p b = false) :
    (l.set i b).filter p = l.filter p := by
  induction l generalizing i with
  | nil => rfl
  | cons c l ih =>
    cases i with
    | zero =>
      cases hi
      rw [List.set_cons_zero, List.filter_cons_of_neg (by simp [hb]),
        List.filter_cons_of_neg (by simp [ha])]
    | succ i =>
      rw [List.set_cons_succ, List.filter_cons, List.filter_cons, ih hi]

/-- Adopting an entry of another controller leaves ours as they are. -/
theorem own_adoptInto (es : List Entry) {f : Entry} (hf : f.isByOther ours = true) :
    own ours (adoptInto es f) = own ours es := by
  unfold adoptInto own
  split
  · rename_i i hi
    obtain ⟨hlt, hs, -⟩ := List.findIdx?_eq_some_iff_getElem.1 hi
    have he : es[i].isByOther ours = f.isByOther ours :=
      isByOther_of_label (describesSame_iff.1 hs)
    exact filter_set_of_neg (List.getElem?_eq_getElem hlt) (by simp [he, hf]) (by simp [hf])
  · split
    · rfl
    · simp [List.filter_append, hf]

theorem own_foldl_adoptInto {fs : List Entry} (hfs : ∀ f ∈ fs, f.isByOther ours = true)
    (es : List Entry) : own ours (fs.foldl adoptInto es) = own ours es := by
  induction fs generalizing es with
  | nil => rfl
  | cons f fs ih =>
    rw [List.foldl_cons, ih (fun g hg => hfs g (List.mem_cons_of_mem _ hg)),
      own_adoptInto es (hfs f List.mem_cons_self)]

theorem own_dropUnseen (seen es : List Entry) : own ours (dropUnseen ours seen es) = own ours es := by
  unfold own dropUnseen
  rw [List.filter_filter]
  congr 1
  funext e
  cases e.isByOther ours <;> simp

/-- Our own entries stay as they are, whatever is seen. -/
theorem own_merged (seen es : List Entry) : own ours (merged ours seen es) = own ours es := by
  rw [merged, own_foldl_adoptInto (fun f hf => (mem_foreign_iff.1 hf).2), own_dropUnseen]

/-- What is adopted is all that can come in. -/
theorem mem_of_mem_adoptInto {es : List Entry} {e f : Entry} (h : e ∈ adoptInto es f) :
    e ∈ es ∨ e = f := by
  unfold adoptInto at h
  split at h
  · exact List.mem_or_eq_of_mem_set h
  · split at h
    · exact .inl h
    · simpa using h

theorem mem_of_mem_foldl_adoptInto {es fs : List Entry} {e : Entry}
    (h : e ∈ fs.foldl adoptInto es) : e ∈ es ∨ e ∈ fs := by
  induction fs generalizing es with
  | nil => exact .inl h
  | cons f fs ih =>
    rcases ih h with hm | hm
    · rcases mem_of_mem_adoptInto hm with hm | rfl
      · exact .inl hm
      · exact .inr List.mem_cons_self
    · exact .inr (List.mem_cons_of_mem f hm)

/-- After a merge there is nothing but what there was and what is seen of others. -/
theorem mem_of_mem_merged {seen es : List Entry} {e : Entry} (h : e ∈ merged ours seen es) :
    e ∈ es ∨ e ∈ foreign ours seen := by
  rcases mem_of_mem_foldl_adoptInto h with hm | hm
  · exact .inl (List.mem_filter.1 hm).1
  · exact .inr hm

end Own

section Distinct

/-- In a list without two elements that `f` takes to the same, the search for an element by its image
finds it. -/
theorem find?_of_nodup_map {α β : Type} [DecidableEq β] {f : α → β} {l : List α}
    (h : (l.map f).Nodup) {a : α} (ha : a ∈ l) : l.find? (fun b => f b = f a) = some a := by
  cases hf : l.find? fun b => f b = f a with
  | none =>
    have := List.find?_eq_none.1 hf a ha
    simp at this
  | some b =>
    have same : f b = f a := by simpa using List.find?_some hf
    rw [List.inj_on_of_nodup_map h (List.mem_of_find?_eq_some hf) ha same]

/-- No two entries describe the same. -/
def Distinct (es : List Entry) : Prop := (es.map label).Nodup

theorem Distinct.filter {es : List Entry} (h : Distinct es) (p : Entry → Bool) :
    Distinct (es.filter p) :=
  (List.filter_sublist.map label).nodup h

theorem Distinct.eq_of_label {es : List Entry} (h : Distinct es) {a b : Entry} (ha : a ∈ es)
    (hb : b ∈ es) (hl : a.label = b.label) : a = b :=
  List.inj_on_of_nodup_map h ha hb hl

theorem Distinct.append_singleton {es : List Entry} (h : Distinct es) {f : Entry}
    (hf : f.label ∉ es.map label) : Distinct (es ++ [f]) := by
  rw [Distinct, List.map_append, List.nodup_append]
  refine ⟨h, by simp, ?_⟩
  intro a ha b hb
  simp only [List.map_cons, List.map_nil, List.mem_singleton] at hb
  exact fun hab => hf (hb ▸ hab ▸ ha)

/-- An entry as it was last seen. -/
def updated (seen : List Entry) (e : Entry) : Entry :=
  (seen.find? fun f => f.label = e.label).getD e

theorem label_updated (seen : List Entry) (e : Entry) : (updated seen e).label = e.label := by
  unfold updated
  cases hf : seen.find? fun f => f.label = e.label with
  | none => rfl
  | some f => simpa using List.find?_some hf

theorem map_label_updated (seen es : List Entry) :
    (es.map (updated seen)).map label = es.map label := by
  rw [List.map_map]
  exact List.map_congr_left fun e _ => label_updated seen e

theorem updated_of_mem {seen : List Entry} (h : Distinct seen) {e f : Entry} (hf : f ∈ seen)
    (hl : f.label = e.label) : updated seen e = f := by
  rw [updated, ← hl, find?_of_nodup_map h hf, Option.getD_some]

theorem updated_of_not_mem {seen : List Entry} {e : Entry} (h : ∀ f ∈ seen, f.label ≠ e.label) :
    updated seen e = e := by
  have : seen.find? (fun f => f.label = e.label) = none := by
    rw [List.find?_eq_none]
    intro f hf
    simpa using h f hf
  rw [updated, this, Option.getD_none]

theorem updated_singleton (f e : Entry) :
    updated [f] e = if f.label = e.label then f else e := by
  by_cases hl : f.label = e.label <;> simp [updated, hl]

/-- What is seen can be taken one by one. -/
theorem updated_cons {f : Entry} {fs : List Entry} (fresh : ∀ g ∈ fs, g.label ≠ f.label)
    (e : Entry) : updated (f :: fs) e = updated fs (updated [f] e) := by
  rw [updated_singleton]
  by_cases hl : f.label = e.label
  · rw [if_pos hl, updated_of_not_mem fresh]
    simp [updated, hl]
  · rw [if_neg hl]
    simp [updated, hl]

theorem map_updated_cons_of_not_mem {es : List Entry} {f : Entry} (hf : f.label ∉ es.map label)
    (fs : List Entry) : es.map (updated (f :: fs)) = es.map (updated fs) := by
  apply List.map_congr_left
  intro e he
  have : f.label ≠ e.label := fun hl => hf (hl ▸ List.mem_map_of_mem he)
  simp [updated, this]

/-- Among distinct entries, an entry is brought up to date wherever it is described. -/
theorem Distinct.adoptInto_of_mem {es : List Entry} (h : Distinct es) {f : Entry}
    (hf : f.label ∈ es.map label) : adoptInto es f = es.map (updated [f]) := by
  unfold adoptInto
  cases hi : es.findIdx? (·.describesSame f) with
  | none =>
    obtain ⟨e, he, hl⟩ := List.mem_map.1 hf
    have := List.findIdx?_eq_none_iff.1 hi e he
    rw [← Bool.not_eq_true, describesSame_iff] at this
    exact absurd hl this
  | some i =>
    obtain ⟨hlt, hs, -⟩ := List.findIdx?_eq_some_iff_getElem.1 hi
    have hl := describesSame_iff.1 hs
    apply List.ext_getElem?
    intro j
    rw [List.getElem?_set, List.getElem?_map]
    by_cases hj : i = j
    · subst hj
      rw [if_pos rfl, if_pos hlt, List.getElem?_eq_getElem hlt, Option.map_some, updated_singleton,
        if_pos hl.symm]
    · rw [if_neg hj]
      cases he : es[j]? with
      | none => rfl
      | some e =>
        obtain ⟨hlt', rfl⟩ := List.getElem?_eq_some_iff.1 he
        have other : f.label ≠ es[j].label := by
          intro hl'
          have hlt1 : i < (es.map label).length := by rwa [List.length_map]
          have hlt2 : j < (es.map label).length := by rwa [List.length_map]
          have same : (es.map label)[i] = (es.map label)[j] := by
            rw [List.getElem_map, List.getElem_map, hl, hl']
          exact hj ((List.Nodup.getElem_inj_iff h).1 same)
        rw [Option.map_some, updated_singleton, if_neg other]

/-- An entry under a new label comes in at the end while there is room. -/
theorem adoptInto_of_not_mem {es : List Entry} {f : Entry} (hf : f.label ∉ es.map label) :
    adoptInto es f = if maxAncestors ≤ es.length then es else es ++ [f] := by
  unfold adoptInto
  have : es.findIdx? (·.describesSame f) = none := by
    rw [List.findIdx?_eq_none_iff]
    intro e he
    rw [← Bool.not_eq_true, describesSame_iff]
    exact fun hl => hf (List.mem_map.2 ⟨e, he, hl⟩)
  rw [this]

/-- Adopting distinct entries: what was there is brought up to date in its place, and what is new
follows in order, as far as there is room. -/
theorem foldl_adoptInto {es fs : List Entry} (hes : Distinct es) (hfs : Distinct fs) :
    fs.foldl adoptInto es = es.map (updated fs) ++
      (fs.filter fun f => f.label ∉ es.map label).take (maxAncestors - es.length) := by
  induction fs generalizing es with
  | nil =>
    have : es.map (updated []) = es := List.map_id' es
    simp [this]
  | cons f fs ih =>
    obtain ⟨fresh, hfs⟩ := List.nodup_cons.1 hfs
    have notIn : ∀ g ∈ fs, g.label ≠ f.label :=
      fun g hg hl => fresh (hl ▸ List.mem_map_of_mem hg)
    rw [List.foldl_cons]
    by_cases hf : f.label ∈ es.map label
    · have distinct : Distinct (es.map (updated [f])) := by rwa [Distinct, map_label_updated]
      rw [hes.adoptInto_of_mem hf, ih distinct hfs, map_label_updated, List.length_map,
        List.filter_cons_of_neg (by simpa using hf), List.map_map]
      congr 1
      exact List.map_congr_left fun e _ => (updated_cons notIn e).symm
    · rw [adoptInto_of_not_mem hf, List.filter_cons_of_pos (by simpa using hf),
        map_updated_cons_of_not_mem hf]
      by_cases full : maxAncestors ≤ es.length
      · rw [if_pos full, ih hes hfs, Nat.sub_eq_zero_of_le full, List.take_zero, List.take_zero]
      · have stillNew : (fs.filter fun g => g.label ∉ (es ++ [f]).map label) =
            fs.filter fun g => g.label ∉ es.map label := by
          apply List.filter_congr
          intro g hg
          simp [notIn g hg]
        have room : maxAncestors - es.length = (maxAncestors - (es ++ [f]).length) + 1 := by
          rw [List.length_append, List.length_singleton]
          omega
        rw [if_neg full, ih (hes.append_singleton hf) hfs, stillNew, room, List.take_succ_cons,
          List.map_append, List.append_assoc, List.map_singleton, updated_of_not_mem notIn,
          List.singleton_append]

section Merged

variable {ours : ControllerName} {seen es : List Entry}

/-- What stays is ours, or seen. -/
theorem mem_dropUnseen_iff {fs : List Entry} {e : Entry} :
    e ∈ dropUnseen ours fs es ↔
      e ∈ es ∧ (e.isByOther ours = true → ∃ f ∈ fs, f.label = e.label) := by
  simp only [dropUnseen, List.mem_filter, Bool.not_eq_true', Bool.and_eq_false_imp,
    Bool.not_eq_false', List.any_eq_true, describesSame_iff]

/-- A merge at one glance: what stays is brought up to date in its place, and what is new follows in
order as far as there is room. -/
theorem merged_eq (hes : Distinct es) (hseen : Distinct (foreign ours seen)) :
    merged ours seen es =
      (dropUnseen ours (foreign ours seen) es).map (updated (foreign ours seen)) ++
        ((foreign ours seen).filter fun f =>
          f.label ∉ (dropUnseen ours (foreign ours seen) es).map label).take
            (maxAncestors - (dropUnseen ours (foreign ours seen) es).length) :=
  foldl_adoptInto (hes.filter _) hseen

/-- No merge leaves two entries that describe the same. -/
theorem Distinct.merged (hes : Distinct es) (hseen : Distinct (foreign ours seen)) :
    Distinct (merged ours seen es) := by
  rw [merged_eq hes hseen, Distinct, List.map_append, map_label_updated, List.nodup_append]
  refine ⟨hes.filter _, ((List.take_sublist _ _).map label).nodup (hseen.filter _), ?_⟩
  intro a ha b hb hab
  obtain ⟨f, hf, rfl⟩ := List.mem_map.1 hb
  have hnew := (List.mem_filter.1 (List.mem_of_mem_take hf)).2
  simp only [decide_eq_true_eq] at hnew
  exact hnew (hab ▸ ha)

/-- What others have in the outcome is what was seen of them. -/
theorem foreign_merged_subset (hes : Distinct es) (hseen : Distinct (foreign ours seen)) :
    foreign ours (merged ours seen es) ⊆ foreign ours seen := by
  intro e he
  obtain ⟨hm, hother⟩ := mem_foreign_iff.1 he
  rw [merged_eq hes hseen, List.mem_append] at hm
  rcases hm with hm | hm
  · obtain ⟨e0, h0, rfl⟩ := List.mem_map.1 hm
    rw [isByOther_of_label (label_updated _ _)] at hother
    obtain ⟨f, hf, hl⟩ := (mem_dropUnseen_iff.1 h0).2 hother
    rw [updated_of_mem hseen hf hl]
    exact hf
  · exact (List.mem_filter.1 (List.mem_of_mem_take hm)).1

/-- Those of others that stay and those that come are as many as were seen. -/
theorem length_kept_add_length_new (hes : Distinct es) (hseen : Distinct (foreign ours seen)) :
    (dropUnseen ours (foreign ours seen) es).length +
      ((foreign ours seen).filter fun f =>
        f.label ∉ (dropUnseen ours (foreign ours seen) es).map label).length =
      (own ours es).length + (foreign ours seen).length := by
  generalize hkept : dropUnseen ours (foreign ours seen) es = kept
  have distinct : Distinct kept := hkept ▸ hes.filter _
  have hown : own ours kept = own ours es := hkept ▸ own_dropUnseen _ _
  have paired : ((foreign ours kept).map label).Perm
      (((foreign ours seen).filter fun f => f.label ∈ kept.map label).map label) := by
    have dkept : Distinct (foreign ours kept) := distinct.filter _
    rw [List.perm_ext_iff_of_nodup dkept (hseen.filter _)]
    intro l
    constructor
    · intro hl
      obtain ⟨e, he, rfl⟩ := List.mem_map.1 hl
      obtain ⟨hk, hother⟩ := mem_foreign_iff.1 he
      obtain ⟨f, hf, hfl⟩ := (mem_dropUnseen_iff.1 (hkept ▸ hk)).2 hother
      refine List.mem_map.2 ⟨f, List.mem_filter.2 ⟨hf, ?_⟩, hfl⟩
      simpa [hfl] using List.mem_map_of_mem (f := label) hk
    · intro hl
      obtain ⟨f, hf, rfl⟩ := List.mem_map.1 hl
      obtain ⟨hfs, hk⟩ := List.mem_filter.1 hf
      obtain ⟨e, he, hel⟩ := List.mem_map.1 (of_decide_eq_true hk)
      refine List.mem_map.2 ⟨e, mem_foreign_iff.2 ⟨he, ?_⟩, hel⟩
      rw [isByOther_of_label hel]
      exact (mem_foreign_iff.1 hfs).2
  have hlen := paired.length_eq
  rw [List.length_map, List.length_map] at hlen
  have hsplit := List.length_eq_length_filter_add (l := foreign ours seen)
    fun f => decide (f.label ∈ kept.map label)
  have htotal := length_own_add_foreign ours kept
  rw [hown] at htotal
  simp only [decide_not] at hsplit ⊢
  omega

/-- With room for all that is seen beside our own, nothing of it is left out. -/
theorem merged_of_room (hes : Distinct es) (hseen : Distinct (foreign ours seen))
    (room : (own ours es).length + (foreign ours seen).length ≤ maxAncestors) :
    merged ours seen es =
      (dropUnseen ours (foreign ours seen) es).map (updated (foreign ours seen)) ++
        (foreign ours seen).filter fun f =>
          f.label ∉ (dropUnseen ours (foreign ours seen) es).map label := by
  have count := length_kept_add_length_new hes hseen
  rw [merged_eq hes hseen, List.take_of_length_le (by omega)]

/-- Everything seen of others finds a place exactly if there is room for it beside our own. -/
theorem foreign_subset_merged_iff (hes : Distinct es) (hseen : Distinct (foreign ours seen))
    (few : (merged ours seen es).length ≤ maxAncestors) :
    foreign ours seen ⊆ merged ours seen es ↔
      (own ours es).length + (foreign ours seen).length ≤ maxAncestors := by
  constructor
  · intro hsub
    have inForeign : foreign ours seen ⊆ foreign ours (merged ours seen es) :=
      fun f hf => mem_foreign_iff.2 ⟨hsub hf, (mem_foreign_iff.1 hf).2⟩
    have hlen := ((List.Nodup.of_map label hseen).subperm inForeign).length_le
    have htotal := length_own_add_foreign ours (merged ours seen es)
    rw [own_merged] at htotal
    omega
  · intro room f hf
    rw [merged_of_room hes hseen room, List.mem_append]
    by_cases hk : f.label ∈ (dropUnseen ours (foreign ours seen) es).map label
    · obtain ⟨e, he, hel⟩ := List.mem_map.1 hk
      exact .inl (List.mem_map.2 ⟨e, he, updated_of_mem hseen hf hel.symm⟩)
    · exact .inr (List.mem_filter.2 ⟨hf, by simpa using hk⟩)

end Merged

end Distinct

end Entry
end PolicyAttachment
