import PolicyAttachment.Proofs.Register.Resume
import PolicyAttachment.Proofs.Tracker.Conditions

/-!
# Condition sets step by step

`ConditionSet.Step` says what an operation makes of a list of conditions, by the places of the conditions
in it. Nothing in it speaks of the bounds of a set, but a list that keeps them keeps them through every
step: `ConditionSet.Step.keeps`. A condition set takes these steps and no others, from however it came
about: `ConditionSet.Begun.performAll_steps`.
-/

namespace PolicyAttachment
set_option autoImplicit false

namespace ConditionSet

/-- What can be done to a condition set. -/
inductive Operation where
  | insert (c : Condition) (overflow : OverflowRule)
  | extract (type : String)
  | inherit (previous : ConditionSet)

/-- What comes back. -/
inductive Answer where
  | inserted
  | full (error : ConditionSetFull)
  | extracted (c : Option Condition)
  | inherited
deriving DecidableEq

/-- Carries out one operation. A set that has no room stays as it is. -/
def perform (s : ConditionSet) : Operation → Answer × ConditionSet
  | .insert c overflow =>
    match s.insert c overflow with
    | .ok s' => (.inserted, s')
    | .error e => (.full e, s)
  | .extract type =>
    match s.extract? type with
    | some (c, s') => (.extracted (some c), s')
    | none => (.extracted none, s)
  | .inherit previous => (.inherited, s.inheritTimes previous)

/-- Carries out some operations, one after the other. -/
def performAll (s : ConditionSet) : List Operation → List Answer × ConditionSet
  | [] => ([], s)
  | op :: ops =>
    let (answer, next) := s.perform op
    let (answers, last) := next.performAll ops
    (answer :: answers, last)

/-- `d` is what becomes of `c` next to the conditions `previous`: it takes the time of the one of its
type, if that one has the same status. -/
inductive Inherits (previous : List Condition) (c : Condition) : Condition → Prop
  | since {p : Condition} (mem : p ∈ previous) (type : p.type = c.type) (status : p.status = c.status) :
      Inherits previous c { c with lastTransition := p.lastTransition }
  | anew (changed : ∀ p ∈ previous, p.type = c.type → p.status ≠ c.status) : Inherits previous c c

/-- What an operation answers to a list of conditions, and what it makes of the list. -/
inductive Step : List Condition → Operation → Answer → List Condition → Prop
  | replaced {xs ys : List Condition} {d c : Condition} {overflow : OverflowRule}
      (same : d.type = c.type) : Step (xs ++ d :: ys) (.insert c overflow) .inserted (xs ++ c :: ys)
  | appended {cs : List Condition} {c : Condition} {overflow : OverflowRule}
      (fresh : ∀ x ∈ cs, x.type ≠ c.type) (room : cs.length < maxConditions) :
      Step cs (.insert c overflow) .inserted (cs ++ [c])
  | refused {cs : List Condition} {c : Condition} (fresh : ∀ x ∈ cs, x.type ≠ c.type)
      (full : maxConditions ≤ cs.length) : Step cs (.insert c .reject) (.full ⟨c.type⟩) cs
  | displaced {xs ys : List Condition} {d c : Condition}
      (fresh : ∀ x ∈ xs ++ d :: ys, x.type ≠ c.type)
      (full : maxConditions ≤ (xs ++ d :: ys).length)
      (earliest : Earliest Condition.lastTransition xs d ys) :
      Step (xs ++ d :: ys) (.insert c .displaceOldest) .inserted (xs ++ ys ++ [c])
  | extracted {xs ys : List Condition} {d : Condition} {type : String} (same : d.type = type) :
      Step (xs ++ d :: ys) (.extract type) (.extracted (some d)) (xs ++ ys)
  | absent {cs : List Condition} {type : String} (fresh : ∀ x ∈ cs, x.type ≠ type) :
      Step cs (.extract type) (.extracted none) cs
  | inherited {cs cs' : List Condition} {previous : ConditionSet}
      (each : List.Forall₂ (Inherits previous.conditions) cs cs') :
      Step cs (.inherit previous) .inherited cs'

/-- What some operations answer one after the other, and what they make of the list. -/
inductive Steps : List Condition → List Operation → List Answer → List Condition → Prop
  | nil (cs : List Condition) : Steps cs [] [] cs
  | cons {cs cs' cs'' : List Condition} {op : Operation} {ops : List Operation} {answer : Answer}
      {answers : List Answer} (step : Step cs op answer cs') (rest : Steps cs' ops answers cs'') :
      Steps cs (op :: ops) (answer :: answers) cs''

/-- The conditions keep the bounds of a set. -/
structure Fit (cs : List Condition) : Prop where
  distinct : (cs.map Condition.type).Nodup
  bounded : cs.length ≤ maxConditions

/-- How a set comes about: without conditions, from a list of them, or from what is stored of them. -/
inductive Begun : List Condition → ConditionSet → Prop
  | empty : Begun [] empty
  | listed {cs : List Condition} {s : ConditionSet} (h : ofConditions cs = .ok s) : Begun cs s
  | stored {l : List StoredCondition} {cs : List Condition} {s : ConditionSet} (h : ofStored l = .ok s)
      (same : cs.map Condition.toStored = l) : Begun cs s

section Bounds

variable {cs cs' : List Condition} {op : Operation} {ops : List Operation} {answer : Answer}
  {answers : List Answer}

theorem Inherits.type_eq {previous : List Condition} {c d : Condition} (h : Inherits previous c d) :
    d.type = c.type := by
  cases h <;> rfl

/-- Inheriting times leaves the types of a list. -/
theorem map_type_of_inherits {previous : List Condition}
    (h : List.Forall₂ (Inherits previous) cs cs') :
    cs'.map Condition.type = cs.map Condition.type := by
  induction h with
  | nil => rfl
  | cons h _ ih => rw [List.map_cons, List.map_cons, h.type_eq, ih]

theorem Fit.sublist (h : Fit cs) (sub : cs'.Sublist cs) : Fit cs' :=
  ⟨(sub.map _).nodup h.distinct, Nat.le_trans sub.length_le h.bounded⟩

theorem Fit.append_singleton {c : Condition} (h : Fit cs) (fresh : ∀ x ∈ cs, x.type ≠ c.type)
    (room : cs.length < maxConditions) : Fit (cs ++ [c]) where
  distinct := by
    rw [List.map_append, List.map_singleton]
    refine List.Nodup.append h.distinct (List.nodup_singleton _) ?_
    rw [List.disjoint_singleton]
    intro hm
    obtain ⟨x, hx, same⟩ := List.mem_map.1 hm
    exact fresh x hx same
  bounded := by
    rw [List.length_append, List.length_singleton]
    omega

/-- A list that keeps the bounds of a set keeps them through a step. -/
theorem Step.keeps (h : Step cs op answer cs') (fit : Fit cs) : Fit cs' := by
  cases h with
  | @replaced xs ys d c overflow same =>
    refine ⟨?_, ?_⟩
    · have distinct := fit.distinct
      rwa [List.map_append, List.map_cons, same, ← List.map_cons, ← List.map_append] at distinct
    · have bounded := fit.bounded
      rwa [List.length_append, List.length_cons] at bounded ⊢
  | appended fresh room => exact fit.append_singleton fresh room
  | refused fresh full => exact fit
  | @displaced xs ys d c fresh full earliest =>
    have sub : (xs ++ ys).Sublist (xs ++ d :: ys) :=
      (List.Sublist.refl xs).append (List.sublist_cons_self d ys)
    refine (fit.sublist sub).append_singleton (fun x hx => fresh x (sub.subset hx)) ?_
    have bounded := fit.bounded
    simp only [List.length_append, List.length_cons] at bounded ⊢
    omega
  | @extracted xs ys d type same =>
    exact fit.sublist ((List.Sublist.refl xs).append (List.sublist_cons_self d ys))
  | absent fresh => exact fit
  | inherited each =>
    refine ⟨?_, ?_⟩
    · rw [map_type_of_inherits each]
      exact fit.distinct
    · rw [← each.length_eq]
      exact fit.bounded

/-- Every step leaves a list that fits, and so do all of them. -/
theorem Steps.keeps (h : Steps cs ops answers cs') (fit : Fit cs) : Fit cs' := by
  induction h with
  | nil => exact fit
  | cons step _ ih => exact ih (step.keeps fit)

end Bounds

section Exactness

variable {s : ConditionSet} {cs : List Condition} {op : Operation} {answer : Answer}

/-- A type occurs at one place at least, or nowhere. -/
theorem split_type (cs : List Condition) (type : String) :
    (∃ xs d ys, cs = xs ++ d :: ys ∧ d.type = type) ∨ ∀ x ∈ cs, x.type ≠ type := by
  by_cases h : type ∈ cs.map Condition.type
  · obtain ⟨d, hd, same⟩ := List.mem_map.1 h
    obtain ⟨xs, ys, split⟩ := List.append_of_mem hd
    exact .inl ⟨xs, d, ys, split, same⟩
  · exact .inr fun x hx same => h (same ▸ List.mem_map_of_mem hx)

theorem exists_inherits (previous : List Condition) (c : Condition) :
    ∃ d, Inherits previous c d := by
  by_cases h : ∃ p ∈ previous, p.type = c.type ∧ p.status = c.status
  · obtain ⟨p, mem, type, status⟩ := h
    exact ⟨_, .since mem type status⟩
  · exact ⟨c, .anew fun p mem type status => h ⟨p, mem, type, status⟩⟩

/-- Every operation can be carried out on every list. -/
theorem exists_step (cs : List Condition) (op : Operation) :
    ∃ answer cs', Step cs op answer cs' := by
  cases op with
  | insert c overflow =>
    rcases split_type cs c.type with ⟨xs, d, ys, rfl, same⟩ | fresh
    · exact ⟨_, _, .replaced same⟩
    · by_cases room : cs.length < maxConditions
      · exact ⟨_, _, .appended fresh room⟩
      · have full := Nat.not_lt.1 room
        cases overflow with
        | reject => exact ⟨_, _, .refused fresh full⟩
        | displaceOldest =>
          have nonempty : cs ≠ [] := by
            rintro rfl
            exact room (by decide)
          obtain ⟨d, oldest⟩ := Condition.exists_oldest? nonempty
          obtain ⟨xs, ys, rfl, earliest⟩ := Condition.exists_earliest oldest
          exact ⟨_, _, .displaced fresh full earliest⟩
  | extract type =>
    rcases split_type cs type with ⟨xs, d, ys, rfl, same⟩ | fresh
    · exact ⟨_, _, .extracted same⟩
    · exact ⟨_, _, .absent fresh⟩
  | inherit previous =>
    have each : ∃ cs', List.Forall₂ (Inherits previous.conditions) cs cs' := by
      induction cs with
      | nil => exact ⟨[], .nil⟩
      | cons c cs ih =>
        obtain ⟨d, hd⟩ := exists_inherits previous.conditions c
        obtain ⟨cs', rest⟩ := ih
        exact ⟨d :: cs', .cons hd rest⟩
    obtain ⟨cs', each⟩ := each
    exact ⟨_, cs', .inherited each⟩

/-- An insertion that leaves a list leaves a set that has it. -/
theorem exists_insert_of_map {c : Condition} {overflow : OverflowRule}
    (h : (s.insert c overflow).map conditions = .ok cs) :
    ∃ s', s.insert c overflow = .ok s' ∧ s'.conditions = cs := by
  cases hs : s.insert c overflow with
  | error e =>
    rw [hs] at h
    cases h
  | ok s' =>
    rw [hs] at h
    exact ⟨s', rfl, Except.ok.inj h⟩

theorem perform_insert_of_map {c : Condition} {overflow : OverflowRule}
    (h : (s.insert c overflow).map conditions = .ok cs) :
    (s.perform (.insert c overflow)).1 = .inserted ∧
      (s.perform (.insert c overflow)).2.conditions = cs := by
  obtain ⟨s', hs, conditions⟩ := exists_insert_of_map h
  simp only [perform, hs]
  exact ⟨trivial, conditions⟩

theorem not_mem_types {type : String} (h : ∀ x ∈ s.conditions, x.type ≠ type) : type ∉ s.types := by
  intro hm
  obtain ⟨x, hx, same⟩ := List.mem_map.1 hm
  exact h x hx same

/-- A condition is the only one of its type in a set. -/
theorem type_ne_of_split {xs ys : List Condition} {d : Condition} (split : s.conditions = xs ++ d :: ys) :
    ∀ x ∈ xs ++ ys, x.type ≠ d.type := by
  have distinct := s.distinct
  rw [split, List.map_append, List.map_cons, List.nodup_middle, ← List.map_append,
    List.nodup_cons] at distinct
  exact fun x hx same => distinct.1 (same ▸ List.mem_map_of_mem hx)

/-- A condition takes the place of the one of its type, under both rules. -/
theorem insert_replacing {xs ys : List Condition} {d c : Condition} (split : s.conditions = xs ++ d :: ys)
    (same : d.type = c.type) (overflow : OverflowRule) :
    (s.insert c overflow).map conditions = .ok (xs ++ c :: ys) := by
  have present : c.type ∈ s.types := by
    rw [types, split, ← same]
    exact List.mem_map_of_mem (by simp)
  have others : ∀ l ⊆ xs ++ ys, (l.map fun x => if x.type = c.type then c else x) = l := by
    intro l hl
    refine (List.map_congr_left fun x hx => ?_).trans (List.map_id l)
    rw [if_neg (same ▸ type_ne_of_split split x (hl hx)), id]
  rw [insert_eq, if_pos present, split, List.map_append, List.map_cons, if_pos same,
    others xs (List.subset_append_left xs ys), others ys (List.subset_append_right xs ys)]

/-- In a full set a new type displaces the first of the earliest conditions and comes last. -/
theorem insert_displacing {xs ys : List Condition} {d c : Condition} (split : s.conditions = xs ++ d :: ys)
    (absent : c.type ∉ s.types) (full : maxConditions ≤ s.size)
    (earliest : Earliest Condition.lastTransition xs d ys) :
    (s.insert c .displaceOldest).map conditions = .ok (xs ++ ys ++ [c]) := by
  have nonempty : s.conditions ≠ [] := by simp [split]
  obtain ⟨e, oldest⟩ := Condition.exists_oldest? nonempty
  have left : s.conditions.erase e = xs ++ ys := by
    rw [Condition.erase_oldest oldest full, split, earliest.leavingRoom_eq (split ▸ full)]
  rw [insert_eq, if_neg absent, if_neg (Nat.not_lt.2 full), oldest]
  exact congrArg (fun l => Except.ok (l ++ [c])) left

/-- The conditions that inherit their times stay in order. -/
theorem conditions_inheritTimes {previous : ConditionSet}
    (each : List.Forall₂ (Inherits previous.conditions) s.conditions cs) :
    (s.inheritTimes previous).conditions = cs := by
  refine map_eq_of_forall₂ each.flip fun d _ c inherits => ?_
  cases inherits with
  | @since p mem type status =>
    have found : previous.get? c.type = some p := get?_eq_some_iff.2 ⟨mem, type⟩
    rw [found]
    exact if_pos status
  | anew changed =>
    cases found : previous.get? d.type with
    | none => rfl
    | some p =>
      obtain ⟨mem, type⟩ := get?_eq_some_iff.1 found
      exact if_neg (changed p mem type)

/-- What a step makes of the conditions of a set, the set makes of them itself. -/
theorem perform_of_step (h : Step s.conditions op answer cs) :
    (s.perform op).1 = answer ∧ (s.perform op).2.conditions = cs := by
  generalize split : s.conditions = before at h
  cases h with
  | replaced same => exact perform_insert_of_map (insert_replacing split same _)
  | appended fresh room =>
    apply perform_insert_of_map
    rw [insert_eq, if_neg (not_mem_types (split ▸ fresh)), if_pos (by rwa [size, split]), split]
  | refused fresh full =>
    have noRoom : maxConditions ≤ s.size := by rwa [size, split]
    simp only [perform, insert_of_full (not_mem_types (split ▸ fresh)) (Nat.not_lt.2 noRoom)]
    exact ⟨trivial, split⟩
  | displaced fresh full earliest =>
    have noRoom : maxConditions ≤ s.size := by rwa [size, split]
    exact perform_insert_of_map
      (insert_displacing split (not_mem_types (split ▸ fresh)) noRoom earliest)
  | @extracted xs ys d type same =>
    have found : s.get? type = some d := get?_eq_some_iff.2 ⟨by simp [split], same⟩
    have elsewhere : d ∉ xs := fun hm =>
      type_ne_of_split split d (List.mem_append_left ys hm) rfl
    simp only [perform, extract?, found, Option.map_some, without, split,
      List.erase_append_right _ elsewhere, List.erase_cons_head, and_self]
  | @absent _ type fresh =>
    have missing : s.get? type = none := by
      rw [get?, split, List.find?_eq_none]
      exact fun x hx => by simpa using fresh x hx
    simp only [perform, extract?, missing, Option.map_none]
    exact ⟨trivial, split⟩
  | inherited each => exact ⟨rfl, conditions_inheritTimes (split ▸ each)⟩

/-- A set takes the steps of its conditions and no others. -/
theorem step_iff : Step s.conditions op answer cs ↔
    answer = (s.perform op).1 ∧ cs = (s.perform op).2.conditions := by
  constructor
  · intro h
    obtain ⟨rfl, rfl⟩ := perform_of_step h
    exact ⟨rfl, rfl⟩
  · rintro ⟨rfl, rfl⟩
    obtain ⟨answer, cs, step⟩ := exists_step s.conditions op
    obtain ⟨answers, conditions⟩ := perform_of_step step
    rwa [answers, conditions]

/-- An insertion that may displace is never refused, and makes no set smaller. -/
theorem exists_insert_displacing (s : ConditionSet) (c : Condition) :
    ∃ s', s.insert c .displaceOldest = .ok s' ∧ c ∈ s'.conditions ∧ s.size ≤ s'.size := by
  obtain ⟨answer, cs, step⟩ := exists_step s.conditions (.insert c .displaceOldest)
  obtain ⟨answers, conditions⟩ := perform_of_step step
  simp only [perform] at answers conditions
  generalize split : s.conditions = before at step
  cases hs : s.insert c .displaceOldest with
  | error e =>
    rw [hs] at answers
    subst answers
    cases step
  | ok s' =>
    rw [hs] at conditions
    subst conditions
    refine ⟨s', rfl, ?_⟩
    rw [size, size, split]
    generalize s'.conditions = after at step
    cases step <;> simp

/-- The steps are the operations as they are performed, and nothing else is a step. -/
theorem steps_iff {ops : List Operation} {answers : List Answer} :
    Steps s.conditions ops answers cs ↔
      answers = (s.performAll ops).1 ∧ cs = (s.performAll ops).2.conditions := by
  induction ops generalizing s answers with
  | nil =>
    constructor
    · rintro ⟨-⟩
      exact ⟨rfl, rfl⟩
    · rintro ⟨rfl, rfl⟩
      exact .nil _
  | cons op ops ih =>
    constructor
    · rintro (_ | ⟨step, rest⟩)
      obtain ⟨rfl, rfl⟩ := step_iff.1 step
      obtain ⟨rfl, rfl⟩ := ih.1 rest
      exact ⟨rfl, rfl⟩
    · rintro ⟨rfl, rfl⟩
      exact .cons (step_iff.2 ⟨rfl, rfl⟩) (ih.2 ⟨rfl, rfl⟩)

end Exactness

section Beginning

variable {s s' : ConditionSet} {cs : List Condition}

/-- What is read is added at the end. -/
theorem conditions_of_insertNew {c : Condition} (h : s.insertNew c = .ok s') :
    s'.conditions = s.conditions ++ [c] := by
  unfold insertNew at h
  split at h
  · cases h
  · rename_i absent
    have inserted := s.insert_eq c .reject
    rw [if_neg absent] at inserted
    cases hs : s.insert c .reject with
    | error e =>
      rw [hs] at h
      cases h
    | ok t =>
      rw [hs] at h inserted
      cases h
      split at inserted
      · exact Except.ok.inj inserted
      · cases inserted

/-- A list that was read is the list as it stood. -/
theorem conditions_of_foldlM (h : cs.foldlM insertNew s = .ok s') :
    s'.conditions = s.conditions ++ cs := by
  induction cs generalizing s with
  | nil =>
    cases h
    exact (List.append_nil _).symm
  | cons c cs ih =>
    rw [List.foldlM_cons] at h
    cases hc : s.insertNew c with
    | error e =>
      rw [hc] at h
      cases h
    | ok t =>
      rw [hc] at h
      rw [ih h, conditions_of_insertNew hc, List.append_assoc, List.singleton_append]

/-- A set begins with just the conditions that it is made from. -/
theorem Begun.conditions_eq (h : Begun cs s) : s.conditions = cs := by
  cases h with
  | empty => rfl
  | listed h => exact conditions_of_foldlM h
  | stored h same =>
    exact List.map_injective_iff.2 Condition.toStored_injective
      ((toStored_of_ofStored h).trans same.symm)

/-- However a set came about and whatever was done to it, the answers and its conditions are those that
the steps lead to, and no others. So it never holds more than eight conditions or two of one type, and it
keeps to the steps from there on: an inserted condition takes the place of the one of its type, or comes
last while there is room, or else it is refused and nothing changes, or it comes last and the first of
those that started earliest is left out. -/
theorem Begun.performAll_steps (begun : Begun cs s) (ops : List Operation) :
    ∃ answers last, s.performAll ops = (answers, last) ∧
      (∀ answers' cs', Steps cs ops answers' cs' ↔ answers' = answers ∧ cs' = last.conditions) ∧
      (last.conditions.map Condition.type).Nodup ∧ last.conditions.length ≤ maxConditions ∧
      ∀ op answer cs', Step last.conditions op answer cs' ↔
        answer = (last.perform op).1 ∧ cs' = (last.perform op).2.conditions := by
  obtain rfl := begun.conditions_eq
  have fit : Fit s.conditions := ⟨s.distinct, s.bounded⟩
  have kept := (steps_iff.2 ⟨rfl, rfl⟩ : Steps s.conditions ops _ _).keeps fit
  exact ⟨_, _, rfl, fun _ _ => steps_iff, kept.distinct, kept.bounded, fun _ _ _ => step_iff⟩

end Beginning

namespace Sample

/-- The condition `Ci`. C3 and C5 are the oldest ones. -/
def numbered (i : Nat) : Condition :=
  ⟨"C" ++ toString i, .holds, "Ok", "", ⟨if i = 3 ∨ i = 5 then 1 else 9, 0⟩, none⟩

def filled : ConditionSet :=
  ⟨(List.range 8).map numbered, by decide +kernel, by decide⟩

def extra : Condition := ⟨"Extra", .fails, "Ok", "", ⟨7, 0⟩, none⟩

def again : Condition := { numbered 0 with reason := "Again" }

def earlier : ConditionSet := ⟨[{ extra with lastTransition := ⟨2, 0⟩ }], by decide, by decide⟩

/-- There is no room for a ninth type until C3 gives way. Then C5 goes, the new one turns out to have been
there earlier, and C0 is said again. -/
def operations : List Operation :=
  [.insert extra .reject, .insert extra .displaceOldest, .extract "C5", .inherit earlier,
    .insert again .reject]

def left : ConditionSet :=
  ⟨[again, numbered 1, numbered 2, numbered 4, numbered 6, numbered 7] ++ earlier.conditions,
    by decide +kernel, by decide⟩

theorem performAll_filled :
    Begun filled.conditions filled ∧ filled.performAll operations =
      ([.full ⟨"Extra"⟩, .inserted, .extracted (some (numbered 5)), .inherited, .inserted], left) ∧
    (∀ answers cs, Steps filled.conditions operations answers cs ↔ answers = [.full ⟨"Extra"⟩, .inserted,
      .extracted (some (numbered 5)), .inherited, .inserted] ∧ cs = left.conditions) ∧
    left.conditions.length ≤ maxConditions := by
  have begun : Begun filled.conditions filled := .listed rfl
  have evaluated : filled.performAll operations =
      ([.full ⟨"Extra"⟩, .inserted, .extracted (some (numbered 5)), .inherited, .inserted], left) := by
    decide +kernel
  obtain ⟨answers, last, performed, exactly, -, bounded, -⟩ := begun.performAll_steps operations
  rw [evaluated, Prod.mk.injEq] at performed
  obtain ⟨rfl, rfl⟩ := performed
  exact ⟨begun, evaluated, exactly, bounded⟩

end Sample

end ConditionSet
end PolicyAttachment
