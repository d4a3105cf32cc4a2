import PolicyAttachment.Register.Status
import Mathlib.Data.List.Nodup

/-!
# Sound registers

A register is sound if its table of positions is in step with its entries and there is room for all
of them. On a sound register every operation is one on the list of entries alone, and keeps it sound:
`put` and `extract?` are described here, the reading of a list by `ofEntries_sound`. Nothing after
this module looks at the table of positions.
-/

namespace PolicyAttachment
set_option autoImplicit false

namespace Entry

@[simp] theorem key?_known (key : EntryKey) (cs : ConditionSet) : (known key cs).key? = some key := rfl

@[simp] theorem key?_verbatim (v : AncestorStatus) : (verbatim v).key? = none := rfl

theorem key?_eq_some_iff {e : Entry} {key : EntryKey} :
    e.key? = some key ↔ ∃ cs, e = known key cs := by
  cases e with
  | known k cs => simp [key?]
  | verbatim v => simp [key?]

/-- The entry with its conditions replaced if it is the one of `key`. -/
def revise (key : EntryKey) (cs : ConditionSet) (e : Entry) : Entry :=
  if e.key? = some key then known key cs else e

theorem key?_revise (key : EntryKey) (cs : ConditionSet) (e : Entry) :
    (e.revise key cs).key? = e.key? := by
  unfold revise
  split
  · rename_i h
    rw [h, key?_known]
  · rfl

end Entry

namespace Register

/-- The table of positions knows every known entry and nothing else. -/
def InStep (r : Register) : Prop :=
  ∀ key i, r.positions.get? key = some i ↔ (r.entries[i]?).bind Entry.key? = some key

/-- The table is in step, and there is room for every entry. -/
structure Sound (r : Register) : Prop where
  inStep : r.InStep
  bounded : r.size ≤ maxAncestors

theorem inStep_empty : InStep empty := by
  intro key i
  simp [empty]

theorem sound_empty : Sound empty := ⟨inStep_empty, by simp [empty, size]⟩

/-- The table points to the entry of the key, wherever there is one. -/
theorem Sound.positions_iff {r : Register} (h : r.Sound) {key : EntryKey} {i : Nat} :
    r.positions.get? key = some i ↔ (r.entries[i]?).bind Entry.key? = some key :=
  h.inStep key i

section Lookup

variable {r : Register} {key : EntryKey} {cs : ConditionSet} {i j : Nat}

theorem bind_key?_eq_some_iff :
    (r.entries[i]?).bind Entry.key? = some key ↔ ∃ cs, r.entries[i]? = some (.known key cs) := by
  rw [Option.bind_eq_some_iff]
  constructor
  · rintro ⟨e, he, hk⟩
    obtain ⟨cs, rfl⟩ := Entry.key?_eq_some_iff.1 hk
    exact ⟨cs, he⟩
  · rintro ⟨cs, h⟩
    exact ⟨_, h, rfl⟩

/-- Two positions of one key are the same. -/
theorem Sound.position_unique (h : r.Sound) {c d : ConditionSet}
    (hi : r.entries[i]? = some (.known key c)) (hj : r.entries[j]? = some (.known key d)) :
    i = j := by
  have pi := h.positions_iff.2 (bind_key?_eq_some_iff.2 ⟨c, hi⟩)
  have pj := h.positions_iff.2 (bind_key?_eq_some_iff.2 ⟨d, hj⟩)
  rw [pi] at pj
  exact Option.some.inj pj

/-- There is one entry of a key. -/
theorem Sound.known_unique (h : r.Sound) {c d : ConditionSet}
    (hc : .known key c ∈ r.entries) (hd : .known key d ∈ r.entries) : c = d := by
  obtain ⟨i, hi⟩ := List.mem_iff_getElem?.1 hc
  obtain ⟨j, hj⟩ := List.mem_iff_getElem?.1 hd
  obtain rfl := h.position_unique hi hj
  rw [hi] at hj
  injection hj with hj
  injection hj

/-- No two known entries have the same key. -/
theorem Sound.nodup_keys (h : r.Sound) : (r.entries.filterMap Entry.key?).Nodup := by
  rw [List.Nodup, List.pairwise_filterMap, List.pairwise_iff_getElem]
  intro i j hi hj hij key hkey key' hkey' heq
  subst heq
  obtain ⟨c, hc⟩ := Entry.key?_eq_some_iff.1 hkey
  obtain ⟨d, hd⟩ := Entry.key?_eq_some_iff.1 hkey'
  have := h.position_unique (List.getElem?_eq_some_iff.2 ⟨hi, hc⟩)
    (List.getElem?_eq_some_iff.2 ⟨hj, hd⟩)
  omega

/-- The table finds what a search through the entries finds. -/
theorem Sound.find?_eq_some_iff (h : r.Sound) :
    r.find? key = some (i, cs) ↔ r.entries[i]? = some (.known key cs) := by
  unfold find?
  constructor
  · intro hf
    simp only [Option.bind_eq_bind, Option.bind_eq_some_iff] at hf
    obtain ⟨k, hk, d, ⟨e, he, hd⟩, heq⟩ := hf
    obtain ⟨c, hc⟩ := bind_key?_eq_some_iff.1 (h.positions_iff.1 hk)
    rw [hc] at he
    cases he
    cases hd
    cases heq
    exact hc
  · intro hi
    have hp := h.positions_iff.2 (bind_key?_eq_some_iff.2 ⟨cs, hi⟩)
    simp [hp, hi, Entry.conditions?]

theorem Sound.find?_eq_none_iff (h : r.Sound) :
    r.find? key = none ↔ ∀ cs, .known key cs ∉ r.entries := by
  constructor
  · intro hn cs hm
    obtain ⟨i, hi⟩ := List.mem_iff_getElem?.1 hm
    rw [h.find?_eq_some_iff.2 hi] at hn
    cases hn
  · intro hn
    cases hf : r.find? key with
    | none => rfl
    | some p => exact absurd (List.mem_of_getElem? (h.find?_eq_some_iff.1 hf)) (hn p.2)

/-- Looking up a key is membership among the entries. -/
theorem Sound.get?_eq_some_iff (h : r.Sound) :
    r.get? key = some cs ↔ .known key cs ∈ r.entries := by
  unfold get?
  rw [Option.map_eq_some_iff, List.mem_iff_getElem?]
  constructor
  · rintro ⟨⟨i, c⟩, hf, rfl⟩
    exact ⟨i, h.find?_eq_some_iff.1 hf⟩
  · rintro ⟨i, hi⟩
    exact ⟨(i, cs), h.find?_eq_some_iff.2 hi, rfl⟩

theorem Sound.get?_eq_none_iff (h : r.Sound) :
    r.get? key = none ↔ ∀ cs, .known key cs ∉ r.entries := by
  rw [get?, Option.map_eq_none_iff, h.find?_eq_none_iff]

theorem mem_known_iff : (key, cs) ∈ r.known ↔ .known key cs ∈ r.entries := by
  unfold known
  rw [List.mem_filterMap]
  constructor
  · rintro ⟨e, he, hk⟩
    cases e with
    | known k c =>
      cases hk
      exact he
    | verbatim v => cases hk
  · intro hm
    exact ⟨_, hm, rfl⟩

theorem mem_ancestorsOf_iff {controller : ControllerName} {a : AncestorRef} :
    a ∈ r.ancestorsOf controller ↔ ∃ cs, .known ⟨a, controller⟩ cs ∈ r.entries := by
  simp only [ancestorsOf, List.mem_map, List.mem_filter, decide_eq_true_eq, Prod.exists,
    mem_known_iff]
  constructor
  · rintro ⟨⟨b, d⟩, cs, ⟨hm, rfl⟩, rfl⟩
    exact ⟨cs, hm⟩
  · rintro ⟨cs, hm⟩
    exact ⟨⟨a, controller⟩, cs, ⟨hm, rfl⟩, rfl⟩

end Lookup

section Operations

variable {r : Register} {key : EntryKey} {cs : ConditionSet} {i : Nat}

/-- Adding an entry that has no key, or a new one. -/
theorem InStep.push (h : r.InStep) {e : Entry}
    (fresh : ∀ key, e.key? = some key → r.positions.get? key = none) : (r.push e).InStep := by
  intro k j
  have shape : (r.entries ++ [e])[j]?.bind Entry.key? =
      if j = r.size then e.key? else (r.entries[j]?).bind Entry.key? := by
    simp only [List.getElem?_append, List.getElem?_singleton, size]
    by_cases hj : j < r.entries.length
    · simp [hj, Nat.ne_of_lt hj]
    · by_cases he : j = r.entries.length
      · simp [he]
      · have : j - r.entries.length ≠ 0 := by omega
        simp [hj, he, this]
  simp only [Register.push, shape]
  cases hk : e.key? with
  | none =>
    by_cases hj : j = r.size
    · subst hj
      simp only [h k, if_true, size, List.getElem?_length, Option.bind_none]
    · simp only [h k, if_neg hj]
  | some key =>
    simp only [Table.get?_insert]
    by_cases hkk : k = key
    · subst hkk
      by_cases hj : j = r.size
      · simp [hj]
      · have := fresh k hk
        simp [hj, Ne.symm hj, ← h k, this]
    · by_cases hj : j = r.size
      · subst hj
        simp [hkk, Ne.symm hkk, h k, size]
      · simp [hkk, hj, h k]

/-- An entry under a new key may be added while there is room. -/
theorem Sound.push (h : r.Sound) {e : Entry} (room : r.size < maxAncestors)
    (fresh : ∀ key, e.key? = some key → ∀ cs, .known key cs ∉ r.entries) :
    (r.push e).Sound where
  inStep := by
    apply h.inStep.push
    intro key hk
    rw [Option.eq_none_iff_forall_ne_some]
    intro i hp
    obtain ⟨c, hc⟩ := bind_key?_eq_some_iff.1 (h.positions_iff.1 hp)
    exact fresh key hk c (List.mem_of_getElem? hc)
  bounded := by
    simp only [size, Register.push, List.length_append, List.length_singleton] at room ⊢
    omega

/-- Putting an entry in the place of one with the same key, or of one without a key. -/
theorem Sound.setAt (h : r.Sound) {e : Entry} (hi : (r.entries[i]?).map Entry.key? = some e.key?) :
    (r.setAt i e).Sound where
  inStep := by
    intro k j
    rw [show (r.setAt i e).positions = r.positions from rfl, h.positions_iff,
      show (r.setAt i e).entries = r.entries.set i e from rfl, List.getElem?_set]
    by_cases hj : i = j
    · subst hj
      obtain ⟨d, hd, hk⟩ := Option.map_eq_some_iff.1 hi
      have hlt := (List.getElem?_eq_some_iff.1 hd).1
      rw [if_pos rfl, if_pos hlt, hd, Option.bind_some, Option.bind_some, hk]
    · simp [hj]
  bounded := by
    simpa [Register.setAt, size] using h.bounded

/-- The table of positions loses the key of the entry that is taken out, and no other. -/
theorem Sound.eraseAt_positions (h : r.Sound) (i : Nat) :
    ∃ kept : Table EntryKey Nat,
      (r.eraseAt i).positions = kept.mapValues (fun _ p => if i < p then p - 1 else p) ∧
      ∀ {k p}, kept.get? k = some p ↔ p ≠ i ∧ (r.entries[p]?).bind Entry.key? = some k := by
  cases hkey : (r.entries[i]?).bind Entry.key? with
  | none =>
    refine ⟨r.positions, by simp only [Register.eraseAt, hkey], ?_⟩
    intro k p
    rw [h.positions_iff]
    refine ⟨fun hbind => ⟨?_, hbind⟩, And.right⟩
    rintro rfl
    rw [hkey] at hbind
    cases hbind
  | some key =>
    obtain ⟨c, hc⟩ := bind_key?_eq_some_iff.1 hkey
    refine ⟨r.positions.erase key, by simp only [Register.eraseAt, hkey], ?_⟩
    intro k p
    rw [Table.get?_erase]
    by_cases hk : k = key
    · subst hk
      simp only [if_true, reduceCtorEq, false_iff, not_and]
      intro hp hbind
      obtain ⟨d, hd⟩ := bind_key?_eq_some_iff.1 hbind
      exact hp (h.position_unique hd hc)
    · rw [if_neg hk, h.positions_iff]
      refine ⟨fun hbind => ⟨?_, hbind⟩, And.right⟩
      rintro rfl
      rw [hkey] at hbind
      exact hk (Option.some.inj hbind).symm

/-- Taking an entry out moves the later ones up, in the table as in the list. -/
theorem Sound.eraseAt (h : r.Sound) (i : Nat) : (r.eraseAt i).Sound where
  inStep := by
    intro k j
    obtain ⟨kept, positions, hkept⟩ := h.eraseAt_positions i
    rw [positions, Table.get?_mapValues, Option.map_eq_some_iff]
    simp only [hkept, Register.eraseAt, List.getElem?_eraseIdx]
    constructor
    · rintro ⟨p, ⟨hp, hbind⟩, hj⟩
      by_cases hlt : i < p
      · rw [if_pos hlt] at hj
        rw [if_neg (by omega), show j + 1 = p by omega]
        exact hbind
      · rw [if_neg hlt] at hj
        rw [if_pos (by omega), ← hj]
        exact hbind
    · intro hbind
      by_cases hlt : j < i
      · rw [if_pos hlt] at hbind
        exact ⟨j, ⟨by omega, hbind⟩, if_neg (by omega)⟩
      · rw [if_neg hlt] at hbind
        exact ⟨j + 1, ⟨by omega, hbind⟩, by rw [if_pos (by omega)]; omega⟩
  bounded := by
    have hb := h.bounded
    have hl := (List.eraseIdx_sublist r.entries i).length_le
    simp only [size, Register.eraseAt] at hb ⊢
    omega

end Operations

section Recording

variable {r : Register} {key : EntryKey} {cs : ConditionSet} {i : Nat}

/-- Setting the entry at the position of a key revises that key. -/
theorem Sound.entries_setAt (h : r.Sound) {old : ConditionSet}
    (hi : r.entries[i]? = some (.known key old)) :
    (r.setAt i (.known key cs)).entries = r.entries.map (Entry.revise key cs) := by
  apply List.ext_getElem?
  intro j
  rw [show (r.setAt i (.known key cs)).entries = r.entries.set i (.known key cs) from rfl,
    List.getElem?_set, List.getElem?_map]
  have hlt := (List.getElem?_eq_some_iff.1 hi).1
  by_cases hj : i = j
  · subst hj
    rw [if_pos rfl, if_pos hlt, hi]
    simp [Entry.revise]
  · rw [if_neg hj]
    cases he : r.entries[j]? with
    | none => rfl
    | some e =>
      have other : e.key? ≠ some key := by
        intro hk
        obtain ⟨c, rfl⟩ := Entry.key?_eq_some_iff.1 hk
        exact hj (h.position_unique hi he)
      simp [Entry.revise, other]

/-- What `put` does, as an operation on the entries: it revises the entry of the key in its place,
else adds one at the end while there is room, else does nothing. -/
theorem Sound.put_cases (h : r.Sound) (key : EntryKey) (cs : ConditionSet) :
    (∃ old how r', .known key old ∈ r.entries ∧ r.put key cs = .ok (how, r') ∧ r'.Sound ∧
      r'.entries = r.entries.map (Entry.revise key cs) ∧
      how = (if old = cs then .unchanged else .updated) ∧ (old = cs → r' = r)) ∨
    ((∀ c, .known key c ∉ r.entries) ∧ r.size < maxAncestors ∧
      r.put key cs = .ok (.inserted, r.push (.known key cs)) ∧ (r.push (.known key cs)).Sound) ∨
    ((∀ c, .known key c ∉ r.entries) ∧ r.size = maxAncestors ∧ r.put key cs = .error ⟨key⟩) := by
  cases hf : r.find? key with
  | some p =>
    obtain ⟨i, old⟩ := p
    have hi := h.find?_eq_some_iff.1 hf
    have hm := List.mem_of_getElem? hi
    refine .inl ⟨old, ?_⟩
    by_cases same : old = cs
    · refine ⟨.unchanged, r, hm, by simp [put, hf, same], h, ?_, by simp [same], fun _ => rfl⟩
      rw [← h.entries_setAt hi, ← same, show (r.setAt i (.known key old)).entries =
        r.entries.set i (.known key old) from rfl]
      obtain ⟨hlt, he⟩ := List.getElem?_eq_some_iff.1 hi
      rw [← he, List.set_getElem_self]
    · refine ⟨.updated, r.setAt i (.known key cs), hm, by simp [put, hf, same], ?_,
        h.entries_setAt hi, by simp [same], fun e => absurd e same⟩
      exact h.setAt (by rw [hi]; rfl)
  | none =>
    have absent := h.find?_eq_none_iff.1 hf
    have hb := h.bounded
    by_cases room : r.size < maxAncestors
    · have notFull : r.isFull = false := by simp [isFull, Nat.not_le.2 room]
      refine .inr (.inl ⟨absent, room, by simp [put, hf, notFull], h.push room ?_⟩)
      intro k hk c
      cases hk
      exact absent c
    · have full : r.isFull = true := by simp [isFull, Nat.not_lt.1 room]
      exact .inr (.inr ⟨absent, by omega, by simp [put, hf, full]⟩)

/-- Taking one element out by its position is filtering it out, if no other is like it. -/
theorem eraseIdx_eq_filter {α : Type} {l : List α} {p : α → Bool} {e : α}
    (hi : l[i]? = some e) (he : p e = false)
    (others : ∀ j d, l[j]? = some d → j ≠ i → p d = true) : l.eraseIdx i = l.filter p := by
  induction l generalizing i with
  | nil => cases hi
  | cons a l ih =>
    cases i with
    | zero =>
      cases hi
      rw [List.eraseIdx_cons_zero, List.filter_cons_of_neg (by simp [he]), eq_comm,
        List.filter_eq_self]
      intro d hd
      obtain ⟨j, hj⟩ := List.mem_iff_getElem?.1 hd
      exact others (j + 1) d hj (by omega)
    | succ i =>
      rw [List.eraseIdx_cons_succ, List.filter_cons_of_pos (others 0 a rfl (by omega)),
        ih hi fun j d hj hne => others (j + 1) d hj (by omega)]

/-- The entry taken out by `extract?` is the one of the key. -/
theorem Sound.extract?_eq (h : r.Sound) (key : EntryKey) :
    (∀ c, .known key c ∉ r.entries) ∧ r.extract? key = none ∨
    ∃ cs r', .known key cs ∈ r.entries ∧ r.extract? key = some (cs, r') ∧ r'.Sound ∧
      r'.entries = r.entries.filter fun e => e.key? != some key := by
  unfold extract?
  cases hf : r.find? key with
  | none => exact .inl ⟨h.find?_eq_none_iff.1 hf, rfl⟩
  | some p =>
    obtain ⟨i, cs⟩ := p
    have hi := h.find?_eq_some_iff.1 hf
    refine .inr ⟨cs, r.eraseAt i, List.mem_of_getElem? hi, rfl, h.eraseAt i,
      eraseIdx_eq_filter hi (by simp) ?_⟩
    intro j d hj hne
    rw [bne_iff_ne]
    intro hk
    obtain ⟨c, rfl⟩ := Entry.key?_eq_some_iff.1 hk
    exact hne (h.position_unique hj hi)

end Recording

section Reading

/-- Entries that are all accepted end up as they stood, with their positions. -/
theorem foldlM_pushNew {es : List Entry} {r r' : Register} (h : r.InStep)
    (hf : es.foldlM pushNew r = .ok r') : r'.entries = r.entries ++ es ∧ r'.InStep := by
  induction es generalizing r with
  | nil =>
    cases hf
    exact ⟨(List.append_nil _).symm, h⟩
  | cons e es ih =>
    rw [List.foldlM_cons] at hf
    cases hp : r.pushNew e with
    | error x =>
      rw [hp] at hf
      cases hf
    | ok s =>
      rw [hp] at hf
      have pushed : s = r.push e ∧ ∀ key, e.key? = some key → r.positions.get? key = none := by
        unfold pushNew at hp
        split at hp
        · rename_i key hkey
          split at hp
          · cases hp
          · rename_i absent
            cases hp
            refine ⟨rfl, ?_⟩
            intro k hk
            obtain rfl := Option.some.inj (hkey.symm.trans hk)
            simpa [Table.contains] using absent
        · rename_i hnone
          cases hp
          refine ⟨rfl, ?_⟩
          intro k hk
          rw [hnone] at hk
          cases hk
      obtain ⟨rfl, fresh⟩ := pushed
      obtain ⟨entries, inStep⟩ := ih (h.push fresh) hf
      refine ⟨?_, inStep⟩
      rw [entries, Register.push, List.append_assoc, List.singleton_append]

/-- A list that is read as a register is the list of its entries. -/
theorem ofEntries_sound {es : List Entry} {r : Register} (h : ofEntries es = .ok r) :
    r.entries = es ∧ r.Sound := by
  unfold ofEntries at h
  cases hf : es.foldlM pushNew empty with
  | error x =>
    rw [hf] at h
    cases h
  | ok s =>
    rw [hf] at h
    obtain ⟨entries, inStep⟩ := foldlM_pushNew inStep_empty hf
    simp only [bind, Except.bind] at h
    split at h
    · cases h
    · cases h
      exact ⟨by simpa [empty] using entries, inStep, by omega⟩

/-- Entries whose keys are distinct are read, if they are not too many. -/
theorem exists_ofEntries {es : List Entry} (distinct : (es.filterMap Entry.key?).Nodup)
    (few : es.length ≤ maxAncestors) : ∃ r, ofEntries es = .ok r := by
  have read : ∀ (es : List Entry) (r : Register), r.InStep →
      ((r.entries ++ es).filterMap Entry.key?).Nodup → ∃ r', es.foldlM pushNew r = .ok r' := by
    intro es
    induction es with
    | nil => exact fun r _ _ => ⟨r, rfl⟩
    | cons e es ih =>
      intro r inStep nodup
      have fresh : ∀ key, e.key? = some key → r.positions.get? key = none := by
        intro key hk
        rw [Option.eq_none_iff_forall_ne_some]
        intro i hp
        obtain ⟨c, hc⟩ := bind_key?_eq_some_iff.1 ((inStep key i).1 hp)
        rw [List.filterMap_append, List.nodup_append] at nodup
        refine nodup.2.2 key (List.mem_filterMap.2 ⟨_, List.mem_of_getElem? hc, rfl⟩) key ?_ rfl
        exact List.mem_filterMap.2 ⟨e, List.mem_cons_self, hk⟩
      have pushed : r.pushNew e = .ok (r.push e) := by
        unfold pushNew
        split
        · rename_i key hkey
          rw [if_neg]
          simp [Table.contains, fresh key hkey]
        · rfl
      rw [List.foldlM_cons, pushed]
      apply ih _ (inStep.push fresh)
      rwa [Register.push, List.append_assoc, List.singleton_append]
  obtain ⟨r, hr⟩ := read es empty inStep_empty (by simpa [empty] using distinct)
  have entries := (foldlM_pushNew inStep_empty hr).1
  refine ⟨r, ?_⟩
  have : ¬ maxAncestors < r.size := by
    simp only [size, entries, empty, List.nil_append]
    omega
  unfold ofEntries
  rw [hr]
  simp only [bind, Except.bind, this, if_false]

end Reading

end Register
end PolicyAttachment
