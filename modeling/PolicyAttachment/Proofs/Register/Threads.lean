import PolicyAttachment.Proofs.Register.Call
import PolicyAttachment.Proofs.Register.Search
import Mathlib.Data.List.Dedup

/-!
# Threads on one register

Threads that share a register take turns, one action at a time. A detach moves the entries of all
others, and each new entry takes room from all others; still, threads that work on entries of their
own do not notice each other while there is room for every entry that they use:
`Register.Reachable.undisturbed`. What an action answers and leaves for its key is a function of what
was recorded for that key (`Act.effect`), and no action changes how many entries there are together
with those of the used keys that are missing (`Register.Sound.crowd_act`).
-/

namespace PolicyAttachment
set_option autoImplicit false

namespace Register

open Entry

/-- What a thread does to the entry of one key. -/
inductive Act where
  | report (controller : ControllerName) (ancestor : AncestorRef) (conditions : ConditionSet)
  | record (report : Report)
  | withdraw (controller : ControllerName) (ancestor : AncestorRef)

/-- What comes back. -/
inductive Outcome where
  | recorded (how : Recorded)
  | refused (error : Unrecordable)
  | withdrawn (was : Bool)
deriving DecidableEq

namespace Act

/-- The key of the entry that the action is about. -/
def key : Act → EntryKey
  | report controller ancestor _ => ⟨ancestor, controller⟩
  | record made => made.key
  | withdraw controller ancestor => ⟨ancestor, controller⟩

/-- What a report of `cs` answers and leaves where `old` was recorded. -/
def reportEffect (cs : ConditionSet) : Option ConditionSet → Recorded × ConditionSet
  | some old =>
    (if old = cs.inheritTimes old then .unchanged else .updated, cs.inheritTimes old)
  | none => (.inserted, cs)

/-- What an action answers and leaves for its key, given what was recorded for it. -/
def effect (old : Option ConditionSet) : Act → Outcome × Option ConditionSet
  | report _ _ cs => (.recorded (reportEffect cs old).1, some (reportEffect cs old).2)
  | record made =>
    (.recorded (reportEffect made.conditions old).1, some (reportEffect made.conditions old).2)
  | withdraw _ _ => (.withdrawn old.isSome, none)

end Act

/-- The answer to a report, and the register after it. One that refuses it stays as it is. -/
def answered (r : Register) : Except Unrecordable (Recorded × Register) → Outcome × Register
  | .ok (how, r') => (.recorded how, r')
  | .error e => (.refused e, r)

/-- Carries out one action under the lock of the register. -/
def act (r : Register) : Act → Outcome × Register
  | .report controller ancestor conditions => r.answered (r.report controller ancestor conditions)
  | .record made => r.answered (r.record made)
  | .withdraw controller ancestor =>
    (.withdrawn (r.withdraw controller ancestor).1, (r.withdraw controller ancestor).2)

/-- Carries out the actions of one thread. -/
def actAll (r : Register) : List Act → List Outcome × Register
  | [] => ([], r)
  | a :: as =>
    let (outcome, next) := r.act a
    let (outcomes, last) := next.actAll as
    (outcome :: outcomes, last)

section Threads

variable {ι : Type} [DecidableEq ι]

/-- Carries out the actions of several threads in the order in which they get the lock. Each answer
goes to the thread whose turn it was. -/
def takeTurns (r : Register) : List (ι × Act) → List (ι × Outcome) × Register
  | [] => ([], r)
  | (i, a) :: turns =>
    let (outcome, next) := r.act a
    let (outcomes, last) := next.takeTurns turns
    ((i, outcome) :: outcomes, last)

/-- The part of the thread `i`, in order. -/
def share {α : Type} (i : ι) (turns : List (ι × α)) : List α :=
  (turns.filter fun turn => turn.1 = i).map Prod.snd

/-- Whether some turn is about the entry `e`. -/
def isTouched (turns : List (ι × Act)) (e : Entry) : Bool :=
  turns.any fun turn => e.key? = some turn.2.key

/-- The keys that are used, each of them once. -/
def keysUsed (turns : List (ι × Act)) : List EntryKey := (turns.map fun turn => turn.2.key).dedup

end Threads

/-- The number of the `keys` that have no entry. -/
def missing (r : Register) (keys : List EntryKey) : Nat :=
  keys.countP fun key => (r.get? key).isNone

section Acting

variable {r : Register} {key : EntryKey}

/-- What an action on a sound register comes to: the effect on what was recorded for its key, and
nothing else. -/
structure Acted (r : Register) (a : Act) (outcome : Outcome) (r' : Register) : Prop where
  sound : r'.Sound
  outcome_eq : outcome = (a.effect (r.get? a.key)).1
  get?_key : r'.get? a.key = (a.effect (r.get? a.key)).2
  get?_other : ∀ key, key ≠ a.key → r'.get? key = r.get? key
  size : r'.size + (r.get? a.key).toList.length = r.size + (r'.get? a.key).toList.length
  others : ∀ p : Entry → Bool, (∀ cs, p (.known a.key cs) = false) →
    r'.entries.filter p = r.entries.filter p

theorem filter_key? {p : Entry → Bool} (h : ∀ cs, p (.known key cs) = false) (es : List Entry) :
    (es.filter fun e => e.key? != some key).filter p = es.filter p := by
  rw [List.filter_filter]
  apply List.filter_congr
  intro e _
  by_cases hk : e.key? = some key
  · obtain ⟨cs, rfl⟩ := key?_eq_some_iff.1 hk
    rw [h, Bool.false_and]
  · rw [bne_iff_ne.2 hk, Bool.and_true]

/-- Taking out the entry of a key takes out one entry. -/
theorem Sound.length_filter_key? (h : r.Sound) {cs : ConditionSet}
    (hold : .known key cs ∈ r.entries) :
    (r.entries.filter fun e => e.key? != some key).length + 1 = r.entries.length := by
  have one : (r.entries.filterMap Entry.key?).count key = 1 :=
    List.count_eq_one_of_mem h.nodup_keys (List.mem_filterMap.2 ⟨_, hold, rfl⟩)
  rw [List.count_filterMap, List.countP_eq_length_filter] at one
  calc (r.entries.filter fun e => e.key? != some key).length + 1
      = 1 + (r.entries.filter fun e => e.key? != some key).length := Nat.add_comm _ _
    _ = (r.entries.filter fun e => e.key? == some key).length +
        (r.entries.filter fun e => e.key? != some key).length := by rw [one]
    _ = r.entries.length := (List.length_eq_length_filter_add _).symm

variable {a : Act} {outcome : Outcome} {r' : Register} {old new : ConditionSet}

/-- The entry of the key is revised in its place. -/
theorem Sound.acted_revised (h : r.Sound) (hold : .known a.key old ∈ r.entries) (sound : r'.Sound)
    (entries : r'.entries = r.entries.map (revise a.key new))
    (effect : a.effect (some old) = (outcome, some new)) : Acted r a outcome r' := by
  have before : r.get? a.key = some old := h.get?_eq_some_iff.2 hold
  have after : r'.get? a.key = some new := by
    rw [sound.get?_eq_some_iff, entries, known_mem_map_revise_iff]
    exact .inl ⟨rfl, rfl, old, hold⟩
  refine ⟨sound, by rw [before, effect], by rw [before, effect, after], ?_, ?_, ?_⟩
  · intro key hkey
    apply Option.ext
    intro cs
    rw [sound.get?_eq_some_iff, h.get?_eq_some_iff, entries, known_mem_map_revise_iff]
    simp only [hkey, false_and, ne_eq, not_false_eq_true, true_and, false_or]
  · rw [before, after, Register.size, Register.size, entries, List.length_map]
    rfl
  · intro p hp
    rw [entries, filter_map_revise hp]

/-- An entry for the key is added at the end. -/
theorem Sound.acted_added (h : r.Sound) (absent : ∀ cs, .known a.key cs ∉ r.entries)
    (sound : (r.push (.known a.key new)).Sound) (effect : a.effect none = (outcome, some new)) :
    Acted r a outcome (r.push (.known a.key new)) := by
  have before : r.get? a.key = none := h.get?_eq_none_iff.2 absent
  have entries : (r.push (.known a.key new)).entries = r.entries ++ [.known a.key new] := rfl
  have after : (r.push (.known a.key new)).get? a.key = some new := by
    rw [sound.get?_eq_some_iff, entries]
    exact List.mem_append_right _ (List.mem_singleton_self _)
  refine ⟨sound, by rw [before, effect], by rw [before, effect, after], ?_, ?_, ?_⟩
  · intro key hkey
    apply Option.ext
    intro cs
    rw [sound.get?_eq_some_iff, h.get?_eq_some_iff, entries]
    simp [hkey]
  · rw [before, after, Register.size, Register.size, entries, List.length_append]
    rfl
  · intro p hp
    rw [entries, List.filter_append, List.filter_singleton, hp]
    exact List.append_nil _

/-- The entry of the key is taken out. -/
theorem Sound.acted_removed (h : r.Sound) (hold : .known a.key old ∈ r.entries) (sound : r'.Sound)
    (entries : r'.entries = r.entries.filter fun e => e.key? != some a.key)
    (effect : a.effect (some old) = (outcome, none)) : Acted r a outcome r' := by
  have before : r.get? a.key = some old := h.get?_eq_some_iff.2 hold
  have after : r'.get? a.key = none := by
    rw [sound.get?_eq_none_iff, entries]
    intro cs hm
    simpa using (List.mem_filter.1 hm).2
  refine ⟨sound, by rw [before, effect], by rw [before, effect, after], ?_, ?_, ?_⟩
  · intro key hkey
    apply Option.ext
    intro cs
    rw [sound.get?_eq_some_iff, h.get?_eq_some_iff, entries, List.mem_filter]
    simp [hkey]
  · have count := h.length_filter_key? hold
    rw [before, after, Register.size, Register.size, entries]
    exact count
  · intro p hp
    rw [entries, filter_key? hp]

/-- A report that finds its entry, or room for it, is recorded. -/
theorem Sound.acted_report (h : r.Sound) (made : Report)
    (room : r.get? made.key = none → r.size < maxAncestors) :
    Acted r (.record made) (r.act (.record made)).1 (r.act (.record made)).2 := by
  obtain ⟨⟨ancestor, controller⟩, cs⟩ := made
  rcases h.put_cases ⟨ancestor, controller⟩ (r.carried ⟨ancestor, controller⟩ cs) with
    ⟨old, how, r', hold, put, sound, entries, hhow, -⟩ | ⟨absent, -, put, sound⟩ |
    ⟨absent, full, -⟩
  · have inherited : r.carried ⟨ancestor, controller⟩ cs = cs.inheritTimes old := by
      rw [carried, h.get?_eq_some_iff.2 hold]
    have acted : r.act (.record ⟨⟨ancestor, controller⟩, cs⟩) = (.recorded how, r') := by
      rw [act, record, report_eq_ok_iff.2 put, answered]
    rw [inherited] at entries hhow
    rw [acted, hhow]
    exact h.acted_revised hold sound entries rfl
  · have inherited : r.carried ⟨ancestor, controller⟩ cs = cs := by
      rw [carried, h.get?_eq_none_iff.2 absent]
    have acted : r.act (.record ⟨⟨ancestor, controller⟩, cs⟩) =
        (.recorded .inserted, r.push (.known ⟨ancestor, controller⟩ cs)) := by
      rw [act, record, report_eq_ok_iff.2 put, inherited, answered]
    rw [inherited] at sound
    rw [acted]
    exact h.acted_added absent sound rfl
  · have := room (h.get?_eq_none_iff.2 absent)
    omega

/-- Withdrawing an entry has its effect, also where there is none. -/
theorem Sound.acted_withdraw (h : r.Sound) (controller : ControllerName) (ancestor : AncestorRef) :
    Acted r (.withdraw controller ancestor) (r.act (.withdraw controller ancestor)).1
      (r.act (.withdraw controller ancestor)).2 := by
  rcases h.extract?_eq ⟨ancestor, controller⟩ with ⟨absent, out⟩ | ⟨cs, r', hold, out, sound, entries⟩
  · have acted : r.act (.withdraw controller ancestor) = (.withdrawn false, r) := by
      rw [act, Register.withdraw, out]
    have before : r.get? (Act.withdraw controller ancestor).key = none := h.get?_eq_none_iff.2 absent
    rw [acted]
    exact ⟨h, by rw [before]; rfl, by rw [before]; rfl, fun _ _ => rfl, rfl, fun _ _ => rfl⟩
  · have acted : r.act (.withdraw controller ancestor) = (.withdrawn true, r') := by
      rw [act, Register.withdraw, out]
    rw [acted]
    exact h.acted_removed hold sound entries rfl

/-- An action that finds its entry, or room for it, has its effect. The two ways to report come to the
same. -/
theorem Sound.acted (h : r.Sound) (a : Act) (room : r.get? a.key = none → r.size < maxAncestors) :
    Acted r a (r.act a).1 (r.act a).2 := by
  cases a with
  | report controller ancestor cs =>
    obtain ⟨sound, outcome, key, other, size, others⟩ :=
      h.acted_report ⟨⟨ancestor, controller⟩, cs⟩ room
    exact ⟨sound, outcome, key, other, size, others⟩
  | record made => exact h.acted_report made room
  | withdraw controller ancestor => exact h.acted_withdraw controller ancestor

/-- There is room for an entry of each of the `keys`, beside all other entries. -/
structure Roomy (keys : List EntryKey) (r : Register) : Prop where
  sound : r.Sound
  crowd : r.size + r.missing keys ≤ maxAncestors

variable {keys : List EntryKey}

/-- There is room for an entry that is missing. -/
theorem Roomy.room (h : r.Roomy keys) (hk : key ∈ keys) (absent : r.get? key = none) :
    r.size < maxAncestors := by
  have some : 0 < r.missing keys := List.countP_pos_iff.2 ⟨key, hk, by rw [absent]; rfl⟩
  have := h.crowd
  omega

/-- An entry that comes takes the room that was kept for it, and one that goes leaves it. -/
theorem Acted.crowd_eq (h : Acted r a outcome r') (nodup : keys.Nodup) (hk : a.key ∈ keys) :
    r'.size + r'.missing keys = r.size + r.missing keys := by
  have split : ∀ s : Register, s.missing keys =
      s.missing (keys.erase a.key) + if (s.get? a.key).isNone then 1 else 0 := by
    intro s
    rw [missing, (List.perm_cons_erase hk).countP_eq, List.countP_cons]
    rfl
  have rest : r'.missing (keys.erase a.key) = r.missing (keys.erase a.key) := by
    apply List.countP_congr
    intro key hkey
    rw [h.get?_other key fun same => nodup.not_mem_erase (same ▸ hkey)]
  have size := h.size
  rw [split r', split r, rest]
  revert size
  cases r.get? a.key <;> cases r'.get? a.key <;>
    simp only [Option.toList, List.length_nil, List.length_singleton, Option.isNone_none,
      Option.isNone_some, if_true, Bool.false_eq_true, if_false] <;> omega

/-- There stays room for all the keys that are acted on. -/
theorem Roomy.acted (h : r.Roomy keys) (nodup : keys.Nodup) (hk : a.key ∈ keys) :
    Acted r a (r.act a).1 (r.act a).2 ∧ (r.act a).2.Roomy keys := by
  have acted := h.sound.acted a (h.room hk)
  exact ⟨acted, acted.sound, acted.crowd_eq nodup hk ▸ h.crowd⟩

end Acting

section Turns

variable {ι : Type} {r : Register} {keys : List EntryKey}

/-- What no turn is about stays as it is, in its order. -/
theorem Roomy.filter_takeTurns (h : r.Roomy keys) (nodup : keys.Nodup) {p : Entry → Bool}
    {turns : List (ι × Act)} (used : ∀ turn ∈ turns, turn.2.key ∈ keys)
    (apart : ∀ turn ∈ turns, ∀ cs, p (.known turn.2.key cs) = false) :
    (r.takeTurns turns).2.entries.filter p = r.entries.filter p := by
  induction turns generalizing r with
  | nil => rfl
  | cons turn turns ih =>
    obtain ⟨acted, roomy⟩ := h.acted nodup (used turn List.mem_cons_self)
    calc ((r.act turn.2).2.takeTurns turns).2.entries.filter p
        = (r.act turn.2).2.entries.filter p :=
          ih roomy (fun t ht => used t (List.mem_cons_of_mem _ ht))
            fun t ht => apart t (List.mem_cons_of_mem _ ht)
      _ = r.entries.filter p := acted.others p (apart turn List.mem_cons_self)

theorem mem_keysUsed {turns : List (ι × Act)} {turn : ι × Act} (h : turn ∈ turns) :
    turn.2.key ∈ keysUsed turns :=
  List.mem_dedup.2 (List.mem_map_of_mem (f := fun turn : ι × Act => turn.2.key) h)

variable [DecidableEq ι]

theorem share_cons_self {α : Type} (i : ι) (x : α) (turns : List (ι × α)) :
    share i ((i, x) :: turns) = x :: share i turns := by
  rw [share, List.filter_cons_of_pos (by simp)]
  rfl

theorem share_cons_other {α : Type} {i j : ι} (h : j ≠ i) (x : α) (turns : List (ι × α)) :
    share i ((j, x) :: turns) = share i turns := by
  rw [share, List.filter_cons_of_neg (by simpa using h)]
  rfl

/-- What a thread sees of a shared register is what it sees when it is alone with a register that
has the same conditions for the keys of its own. At its turns it finds the same recorded in both, and
no other turn is about a key of its own. -/
theorem Roomy.share_takeTurns {alone : Register} (h : r.Roomy keys) (ha : alone.Roomy keys)
    (nodup : keys.Nodup) (i : ι) (mine : EntryKey → Prop) {turns : List (ι × Act)}
    (used : ∀ turn ∈ turns, turn.2.key ∈ keys)
    (owned : ∀ turn ∈ turns, turn.1 = i ↔ mine turn.2.key)
    (same : ∀ key, mine key → r.get? key = alone.get? key) :
    share i (r.takeTurns turns).1 = (alone.actAll (share i turns)).1 ∧
      ∀ key, mine key →
        (r.takeTurns turns).2.get? key = (alone.actAll (share i turns)).2.get? key := by
  induction turns generalizing r alone with
  | nil => exact ⟨rfl, same⟩
  | cons turn turns ih =>
    obtain ⟨j, a⟩ := turn
    have hk : a.key ∈ keys := used (j, a) List.mem_cons_self
    have used' := fun turn ht => used turn (List.mem_cons_of_mem _ ht)
    have owned' := fun turn ht => owned turn (List.mem_cons_of_mem _ ht)
    obtain ⟨acted, roomy⟩ := h.acted nodup hk
    rw [takeTurns]
    by_cases own : j = i
    · subst own
      have hmine : mine a.key := (owned (j, a) List.mem_cons_self).1 rfl
      obtain ⟨actedAlone, roomyAlone⟩ := ha.acted nodup hk
      have same' : ∀ key, mine key → (r.act a).2.get? key = (alone.act a).2.get? key := by
        intro key hkey
        by_cases ha : key = a.key
        · rw [ha, acted.get?_key, actedAlone.get?_key, same _ hmine]
        · rw [acted.get?_other key ha, actedAlone.get?_other key ha, same key hkey]
      obtain ⟨outcomes, final⟩ := ih roomy roomyAlone used' owned' same'
      have outcome : (r.act a).1 = (alone.act a).1 := by
        rw [acted.outcome_eq, actedAlone.outcome_eq, same _ hmine]
      rw [share_cons_self, share_cons_self, actAll]
      exact ⟨congrArg₂ List.cons outcome outcomes, final⟩
    · have notMine : ¬ mine a.key := fun hm => own ((owned (j, a) List.mem_cons_self).2 hm)
      have same' : ∀ key, mine key → (r.act a).2.get? key = alone.get? key := by
        intro key hkey
        rw [acted.get?_other key fun ha => notMine (ha ▸ hkey), same key hkey]
      rw [share_cons_other own, share_cons_other own]
      exact ih roomy ha used' owned' same'

theorem mem_share_iff {α : Type} {i : ι} {x : α} {turns : List (ι × α)} :
    x ∈ share i turns ↔ (i, x) ∈ turns := by
  rw [share, List.mem_map]
  constructor
  · rintro ⟨⟨j, y⟩, hm, rfl⟩
    obtain ⟨hm, hj⟩ := List.mem_filter.1 hm
    rwa [← of_decide_eq_true hj]
  · exact fun hm => ⟨_, List.mem_filter.2 ⟨hm, decide_eq_true rfl⟩, rfl⟩

/-- Threads that use different keys do not disturb each other while there is room for an entry of
every key that they use, whatever order they take turns in. Each is answered as if it were alone with
the register, each key ends with the conditions that its own thread alone would leave for it, and the
entries that nobody touches, those that do not read among them, stay as they are and in their order. -/
theorem Reachable.undisturbed (h : r.Reachable) {programs : ι → List Act}
    (apart : ∀ i j, i ≠ j → ∀ a ∈ programs i, ∀ b ∈ programs j, a.key ≠ b.key)
    {turns : List (ι × Act)} (woven : ∀ i, share i turns = programs i)
    (room : r.size + r.missing (keysUsed turns) ≤ maxAncestors) :
    (∀ i, share i (r.takeTurns turns).1 = (r.actAll (programs i)).1) ∧
    (∀ i, ∀ a ∈ programs i,
      (r.takeTurns turns).2.get? a.key = (r.actAll (programs i)).2.get? a.key) ∧
    (r.takeTurns turns).2.entries.filter (fun e => !isTouched turns e) =
      r.entries.filter fun e => !isTouched turns e := by
  have roomy : r.Roomy (keysUsed turns) := ⟨h.resumable.sound, room⟩
  have nodup : (keysUsed turns).Nodup := List.nodup_dedup _
  have alone : ∀ i, share i (r.takeTurns turns).1 = (r.actAll (programs i)).1 ∧
      ∀ key, (∃ a ∈ programs i, a.key = key) →
        (r.takeTurns turns).2.get? key = (r.actAll (programs i)).2.get? key := by
    intro i
    rw [← woven i]
    refine roomy.share_takeTurns roomy nodup i _ (fun _ => mem_keysUsed) ?_ fun _ _ => rfl
    rintro ⟨j, a⟩ hturn
    constructor
    · rintro rfl
      exact ⟨a, mem_share_iff.2 hturn, rfl⟩
    · rintro ⟨b, hb, same⟩
      by_contra other
      exact apart i j (Ne.symm other) b (woven i ▸ hb) a (woven j ▸ mem_share_iff.2 hturn) same
  refine ⟨fun i => (alone i).1, fun i a ha => (alone i).2 a.key ⟨a, ha, rfl⟩, ?_⟩
  apply roomy.filter_takeTurns nodup fun _ => mem_keysUsed
  intro turn hturn cs
  rw [Bool.not_eq_false', isTouched, List.any_eq_true]
  exact ⟨turn, hturn, decide_eq_true rfl⟩

end Turns

namespace Sample

theorem isValid_storedName : ControllerName.isValid "example.net/mesh" = true := rfl

/-- The key of the entry that was stored first. -/
def storedKey : EntryKey :=
  ⟨⟨gatewayGroup, "Gateway", none, "g", none, none⟩, ⟨"example.net/mesh", isValid_storedName⟩⟩

/-- One thread reports twice and takes its entry back, the other withdraws what was stored first. -/
def threads : Bool → List Act
  | true => [.report reportKey.controller reportKey.ancestor accepted,
      .record ⟨reportKey, accepted⟩, .withdraw reportKey.controller reportKey.ancestor]
  | false => [.withdraw storedKey.controller storedKey.ancestor]

def turns : List (Bool × Act) :=
  [(true, .report reportKey.controller reportKey.ancestor accepted),
    (false, .withdraw storedKey.controller storedKey.ancestor),
    (true, .record ⟨reportKey, accepted⟩),
    (true, .withdraw reportKey.controller reportKey.ancestor)]

/-- The entry in front of the others goes between two reports. -/
theorem undisturbed_woven :
    ∃ r : Register, r.Reachable ∧
      share true (r.takeTurns turns).1 = [.recorded .inserted, .recorded .unchanged, .withdrawn true] ∧
      share false (r.takeTurns turns).1 = [.withdrawn true] ∧
      (r.takeTurns turns).2.get? reportKey = none ∧
      (r.takeTurns turns).2.entries.filter (fun e => !isTouched turns e) =
        (storedStatus.ancestors.map Entry.ofStatus).drop 1 := by
  have loaded : ofStatus storedStatus =
      .ok ((storedStatus.ancestors.map Entry.ofStatus).foldl push empty) := rfl
  have reachable := Reachable.loaded storedStatus loaded
  have apart : ∀ i j, i ≠ j → ∀ a ∈ threads i, ∀ b ∈ threads j, a.key ≠ b.key := by
    decide
  have woven : ∀ i, share i turns = threads i := by
    intro i
    cases i <;> rfl
  obtain ⟨outcomes, final, others⟩ := Reachable.undisturbed reachable apart woven (by decide)
  refine ⟨_, reachable, (outcomes true).trans (by decide), (outcomes false).trans (by decide),
    (final true (.record ⟨reportKey, accepted⟩) (by simp [threads])).trans (by decide),
    others.trans (by decide)⟩

end Sample

end Register
end PolicyAttachment
