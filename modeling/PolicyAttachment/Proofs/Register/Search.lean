import PolicyAttachment.Proofs.Register.Foreign

/-!
# Registers as ordered maps

A bounded ordered map is a list of entries in which the entry of a key is searched for from the front:
`Entry.perform` says what each operation does to such a list. A register does the same and gives the
same answers, however it came about, although it never searches for a known entry:
`Register.performAll_refines`. Its table of positions is exact all along.
-/

namespace PolicyAttachment
set_option autoImplicit false

namespace Register

/-- What can be done to a register. -/
inductive Operation where
  | put (key : EntryKey) (conditions : ConditionSet)
  | extract (key : EntryKey)
  | merge (ours : ControllerName) (seen : List Entry)

/-- What comes back. -/
inductive Answer where
  | recorded (how : Recorded)
  | full (error : RegisterFull)
  | extracted (conditions : Option ConditionSet)
  | merged
deriving DecidableEq

/-- Carries out one operation. A register that has no room stays as it is. -/
def perform (r : Register) : Operation → Answer × Register
  | .put key conditions =>
    match r.put key conditions with
    | .ok (how, r') => (.recorded how, r')
    | .error e => (.full e, r)
  | .extract key =>
    match r.extract? key with
    | some (conditions, r') => (.extracted (some conditions), r')
    | none => (.extracted none, r)
  | .merge ours seen => (.merged, (r.mergeForeign ours seen).2)

/-- Carries out some operations, one after the other. -/
def performAll (r : Register) : List Operation → List Answer × Register
  | [] => ([], r)
  | op :: ops =>
    let (answer, next) := r.perform op
    let (answers, last) := next.performAll ops
    (answer :: answers, last)

end Register

namespace Entry

open Register (Operation Answer)

/-- The position of the first entry of `key`. -/
def indexOf? (key : EntryKey) (es : List Entry) : Option Nat :=
  es.findIdx? fun e => e.key? = some key

/-- The conditions of the first entry of `key`. -/
def search (key : EntryKey) (es : List Entry) : Option ConditionSet :=
  (es.find? fun e => e.key? = some key).bind conditions?

/-- What an operation does to a list of entries: `put` replaces the conditions in the place of the
entry, or adds an entry at the end while there are fewer than sixteen; `extract` takes out just the
entry of the key. -/
def perform (es : List Entry) : Operation → Answer × List Entry
  | .put key conditions =>
    match indexOf? key es with
    | some i =>
      if search key es = some conditions then (.recorded .unchanged, es)
      else (.recorded .updated, es.set i (known key conditions))
    | none =>
      if es.length < maxAncestors then (.recorded .inserted, es ++ [known key conditions])
      else (.full ⟨key⟩, es)
  | .extract key =>
    match indexOf? key es with
    | some i => (.extracted (search key es), es.eraseIdx i)
    | none => (.extracted none, es)
  | .merge ours seen => (.merged, merged ours seen es)

def performAll (es : List Entry) : List Operation → List Answer × List Entry
  | [] => ([], es)
  | op :: ops =>
    let (answer, next) := perform es op
    let (answers, last) := performAll next ops
    (answer :: answers, last)

end Entry

namespace Register

open Entry

section Searching

variable {r : Register} {key : EntryKey} {cs : ConditionSet} {i : Nat}

/-- The linear search ends where the table of positions points. -/
theorem Sound.indexOf?_eq (h : r.Sound) (key : EntryKey) :
    indexOf? key r.entries = (r.find? key).map (·.1) := by
  have same : (fun e : Entry => decide (e.key? = some key)) = (·.describesSame (.known key .empty)) := by
    funext e
    cases e <;> simp [describesSame, key?]
  rw [indexOf?, same]
  exact h.findIdx?_known key .empty

/-- The search finds the only entry of the key. -/
theorem Sound.search_eq_some_iff (h : r.Sound) :
    search key r.entries = some cs ↔ Entry.known key cs ∈ r.entries := by
  unfold search
  rw [Option.bind_eq_some_iff]
  constructor
  · rintro ⟨e, he, hcs⟩
    have ofKey : e.key? = some key := by simpa using List.find?_some he
    obtain ⟨c, rfl⟩ := key?_eq_some_iff.1 ofKey
    cases hcs
    exact List.mem_of_find?_eq_some he
  · intro hm
    have found : (r.entries.find? fun e => e.key? = some key).isSome := by
      rw [List.find?_isSome]
      exact ⟨_, hm, decide_eq_true rfl⟩
    obtain ⟨e, he⟩ := Option.isSome_iff_exists.1 found
    have ofKey : e.key? = some key := by simpa using List.find?_some he
    obtain ⟨c, rfl⟩ := key?_eq_some_iff.1 ofKey
    have := h.known_unique hm (List.mem_of_find?_eq_some he)
    exact ⟨_, he, congrArg some this.symm⟩

/-- The table of positions and the search give the same. -/
theorem Sound.get?_eq_search (h : r.Sound) (key : EntryKey) : r.get? key = search key r.entries := by
  apply Option.ext
  intro cs
  rw [h.get?_eq_some_iff, h.search_eq_some_iff]

end Searching

section Performing

variable {r : Register} {key : EntryKey}

/-- Putting conditions does the same to the list, which branches on the search as the register does
on its table. -/
theorem Sound.perform_put (h : r.Sound) (key : EntryKey) (cs : ConditionSet) :
    (r.perform (.put key cs)).2.Sound ∧ Entry.perform r.entries (.put key cs) =
      ((r.perform (.put key cs)).1, (r.perform (.put key cs)).2.entries) := by
  simp only [Entry.perform, Register.perform, put, h.indexOf?_eq, ← h.get?_eq_search, get?]
  cases hf : r.find? key with
  | some found =>
    obtain ⟨i, old⟩ := found
    have hi := h.find?_eq_some_iff.1 hf
    by_cases same : old = cs
    · simp only [Option.map_some, same, if_true]
      exact ⟨h, trivial⟩
    · simp only [Option.map_some, Option.some.injEq, same, if_false]
      exact ⟨h.setAt (by rw [hi]; rfl), rfl⟩
  | none =>
    have absent := h.find?_eq_none_iff.1 hf
    by_cases room : r.size < maxAncestors
    · have notFull : r.isFull = false := by simp [isFull, Nat.not_le.2 room]
      have short : r.entries.length < maxAncestors := room
      simp only [Option.map_none, notFull, short, if_true, Bool.false_eq_true, if_false]
      refine ⟨h.push room ?_, rfl⟩
      intro k hk c
      cases hk
      exact absent c
    · have full : r.isFull = true := by simp [isFull, Nat.not_lt.1 room]
      have long : ¬ r.entries.length < maxAncestors := room
      simp only [Option.map_none, full, long, if_true, if_false]
      exact ⟨h, trivial⟩

/-- Extracting an entry does the same to the list. -/
theorem Sound.perform_extract (h : r.Sound) (key : EntryKey) :
    (r.perform (.extract key)).2.Sound ∧ Entry.perform r.entries (.extract key) =
      ((r.perform (.extract key)).1, (r.perform (.extract key)).2.entries) := by
  simp only [Entry.perform, Register.perform, extract?, h.indexOf?_eq, ← h.get?_eq_search, get?]
  cases r.find? key with
  | some found => exact ⟨h.eraseAt found.1, rfl⟩
  | none => exact ⟨h, rfl⟩

/-- An operation keeps a register sound, and does to its entries what it does to a list. -/
theorem Sound.perform (h : r.Sound) (op : Operation) :
    (r.perform op).2.Sound ∧
      Entry.perform r.entries op = ((r.perform op).1, (r.perform op).2.entries) := by
  cases op with
  | put key cs => exact h.perform_put key cs
  | extract key => exact h.perform_extract key
  | merge ours seen =>
    obtain ⟨sound, entries, -⟩ := h.mergeForeign ours seen
    exact ⟨sound, congrArg (Prod.mk Answer.merged) entries.symm⟩

/-- Any number of operations do the same to the list as to the register. -/
theorem Sound.performAll (h : r.Sound) (ops : List Operation) :
    (r.performAll ops).2.Sound ∧
      Entry.performAll r.entries ops = ((r.performAll ops).1, (r.performAll ops).2.entries) := by
  induction ops generalizing r with
  | nil => exact ⟨h, rfl⟩
  | cons op ops ih =>
    obtain ⟨sound, first⟩ := h.perform op
    obtain ⟨sound', rest⟩ := ih sound
    refine ⟨sound', ?_⟩
    simp only [Entry.performAll, first, rest, Register.performAll]

/-- Only a `put` is refused, and then nothing changes. -/
theorem perform_of_full {op : Operation} {e : RegisterFull} (h : (r.perform op).1 = .full e) :
    (r.perform op).2 = r := by
  cases op with
  | put key cs =>
    revert h
    simp only [Register.perform]
    cases r.put key cs with
    | ok out =>
      intro h
      cases h
    | error e => exact fun _ => rfl
  | extract key =>
    revert h
    simp only [Register.perform]
    cases r.extract? key <;> intro h <;> cases h
  | merge ours seen => cases h

/-- A register that was read from some entries and went through any operations has given the answers
of an ordered map that is searched from the front, and holds the entries of that map. Its table of
positions knows just the known entries, no two of which have the same key; there are at most sixteen
entries; and what finds no room changes nothing. -/
theorem performAll_refines {es : List Entry} {r : Register} (h : ofEntries es = .ok r)
    (ops : List Operation) : ∃ answers last, r.performAll ops = (answers, last) ∧
      Entry.performAll es ops = (answers, last.entries) ∧
      (∀ key i, last.positions.get? key = some i ↔
        ∃ cs, last.entries[i]? = some (.known key cs)) ∧
      (last.entries.filterMap Entry.key?).Nodup ∧ last.size ≤ maxAncestors ∧
      (∀ key, last.get? key = search key last.entries) ∧
      ∀ op e, (last.perform op).1 = .full e → (last.perform op).2 = last := by
  obtain ⟨rfl, sound⟩ := ofEntries_sound h
  obtain ⟨soundLast, same⟩ := sound.performAll ops
  refine ⟨_, _, rfl, same, ?_, soundLast.nodup_keys, soundLast.bounded, soundLast.get?_eq_search,
    fun op e => perform_of_full⟩
  intro key i
  rw [soundLast.positions_iff, bind_key?_eq_some_iff]

end Performing

namespace Sample

def gateway : ControllerName := ⟨"example.com/gateway", rfl⟩

def mesh : ControllerName := ⟨"example.com/mesh", rfl⟩

def service (name : String) : AncestorRef := ⟨"", "Service", some "ns", name, none, none⟩

/-- An entry that does not read, as its writer has no controller name. -/
def odd : Entry := .verbatim ⟨(service "a").toParent, "mesh", []⟩

def accepted : ConditionSet :=
  ⟨[⟨"Accepted", .holds, "Accepted", "", ⟨0, 0⟩, some 1⟩], by decide, by decide⟩

/-- An entry kept verbatim, then two known ones. -/
def mixed : List Entry :=
  [odd, .known ⟨service "a", gateway⟩ .empty, .known ⟨service "b", mesh⟩ .empty]

/-- The entry in the middle is taken out, and the last one makes room for another of its writer. -/
def operations : List Operation :=
  [.put ⟨service "b", gateway⟩ .empty, .extract ⟨service "a", gateway⟩,
    .put ⟨service "b", gateway⟩ accepted, .put ⟨service "b", gateway⟩ accepted,
    .merge gateway [odd, .known ⟨service "a", mesh⟩ accepted]]

theorem performAll_mixed :
    ∃ r last, ofEntries mixed = .ok r ∧
      r.performAll operations = ([.recorded .inserted, .extracted (some .empty),
        .recorded .updated, .recorded .unchanged, .merged], last) ∧
      last.entries =
        [odd, .known ⟨service "b", gateway⟩ accepted, .known ⟨service "a", mesh⟩ accepted] ∧
      ∀ key i, last.positions.get? key = some i ↔
        ∃ cs, last.entries[i]? = some (.known key cs) := by
  have built : ofEntries mixed = .ok (mixed.foldl push empty) := rfl
  obtain ⟨answers, last, performed, searched, exactly, -⟩ := performAll_refines built operations
  have evaluated : Entry.performAll mixed operations = ([.recorded .inserted,
      .extracted (some .empty), .recorded .updated, .recorded .unchanged, .merged],
      [odd, .known ⟨service "b", gateway⟩ accepted, .known ⟨service "a", mesh⟩ accepted]) := by
    decide +kernel
  rw [evaluated, Prod.mk.injEq] at searched
  obtain ⟨rfl, entries⟩ := searched
  exact ⟨_, last, built, performed, entries.symm, exactly⟩

end Sample

end Register
end PolicyAttachment
