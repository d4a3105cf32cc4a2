import PolicyAttachment.Condition.Basic

/-!
# Condition sets

The conditions of one status entry: at most eight of them, of distinct types, in order. Inserting a
condition replaces the one of its type in place; a ninth type is either refused or displaces the
condition that started earliest. `insert_eq` says which of the three happens.
-/

namespace PolicyAttachment
set_option autoImplicit false

/-- The most conditions one entry may carry. -/
def maxConditions : Nat := 8

/-- What happens when a full set is given a condition of a new type. -/
inductive OverflowRule where
  | reject
  | displaceOldest
deriving DecidableEq, Repr, Inhabited

/-- A condition of the type `type` found no room. -/
structure ConditionSetFull where
  type : String
deriving DecidableEq, Repr

def ConditionSetFull.message (e : ConditionSetFull) : String :=
  "cannot add condition " ++ Text.quoted e.type ++ ": an ancestor may carry at most 8 conditions"

/-- Why a list of conditions is not a condition set. -/
inductive InvalidConditions where
  | unknownStatus (type status : String)
  | duplicateType (type : String)
  | exceeded (error : ConditionSetFull)
deriving DecidableEq, Repr

def InvalidConditions.message : InvalidConditions → String
  | .unknownStatus type status =>
    "condition " ++ Text.quoted type ++ " has unknown status " ++ Text.quoted status
  | .duplicateType type => "duplicate condition type " ++ Text.quoted type
  | .exceeded error => error.message

/-- The first of the conditions that started earliest. -/
def Condition.oldest? : List Condition → Option Condition
  | [] => none
  | c :: cs =>
    match oldest? cs with
    | none => some c
    | some d => if d.lastTransition.before c.lastTransition then some d else some c

theorem Condition.oldest?_mem {cs : List Condition} {c : Condition} (h : oldest? cs = some c) :
    c ∈ cs := by
  induction cs with
  | nil => nomatch h
  | cons d cs ih =>
    unfold oldest? at h
    split at h
    · cases h
      exact List.mem_cons_self
    · split at h
      · cases h
        exact List.mem_cons_of_mem _ (ih (by assumption))
      · cases h
        exact List.mem_cons_self

theorem Condition.exists_oldest? {cs : List Condition} (h : cs ≠ []) :
    ∃ c, oldest? cs = some c := by
  cases cs with
  | nil => exact absurd rfl h
  | cons c cs =>
    unfold oldest?
    split
    · exact ⟨_, rfl⟩
    · split <;> exact ⟨_, rfl⟩

/-- At most eight conditions of distinct types, in order. -/
structure ConditionSet where
  conditions : List Condition
  distinct : (conditions.map Condition.type).Nodup
  bounded : conditions.length ≤ maxConditions
deriving DecidableEq

namespace ConditionSet

theorem ext_conditions {a b : ConditionSet} (h : a.conditions = b.conditions) : a = b := by
  cases a
  cases b
  cases h
  rfl

def empty : ConditionSet := ⟨[], .nil, by decide⟩

instance : Inhabited ConditionSet := ⟨empty⟩

def types (s : ConditionSet) : List String := s.conditions.map Condition.type

def size (s : ConditionSet) : Nat := s.conditions.length

/-- The condition of the type `type`. -/
def get? (s : ConditionSet) (type : String) : Option Condition :=
  s.conditions.find? (·.type == type)

/-- Replaces each condition by one of the same type. -/
def mapKeepingType (s : ConditionSet) (f : Condition → Condition)
    (h : ∀ c, (f c).type = c.type) : ConditionSet where
  conditions := s.conditions.map f
  distinct := by
    have hf : Condition.type ∘ f = Condition.type := funext h
    rw [List.map_map, hf]
    exact s.distinct
  bounded := by
    rw [List.length_map]
    exact s.bounded

/-- Puts `c` in the place of the condition of its type. -/
def replace (s : ConditionSet) (c : Condition) : ConditionSet :=
  s.mapKeepingType (fun d => if d.type = c.type then c else d) fun d => by
    by_cases h : d.type = c.type <;> simp [h]

/-- Adds a condition of a new type at the end. -/
def append (s : ConditionSet) (c : Condition) (fresh : c.type ∉ s.types)
    (room : s.size < maxConditions) : ConditionSet where
  conditions := s.conditions ++ [c]
  distinct := by
    rw [List.map_append, List.nodup_append]
    refine ⟨s.distinct, by simp, ?_⟩
    intro a ha b hb
    simp only [List.map_cons, List.map_nil, List.mem_singleton] at hb
    exact fun hab => fresh (hb ▸ hab ▸ ha)
  bounded := by
    rw [List.length_append]
    exact room

/-- Leaves out the condition `c`. -/
def without (s : ConditionSet) (c : Condition) : ConditionSet where
  conditions := s.conditions.erase c
  distinct := (List.erase_sublist.map Condition.type).nodup s.distinct
  bounded := Nat.le_trans List.erase_sublist.length_le s.bounded

theorem not_mem_types_without {s : ConditionSet} {type : String} (c : Condition)
    (h : type ∉ s.types) : type ∉ (s.without c).types :=
  fun hm => h ((List.erase_sublist.map Condition.type).subset hm)

/-- Taking out the oldest condition makes room for one. -/
theorem size_without_lt {s : ConditionSet} {c : Condition}
    (h : Condition.oldest? s.conditions = some c) : (s.without c).size < maxConditions := by
  have hm := Condition.oldest?_mem h
  have hl : (s.conditions.erase c).length = s.conditions.length - 1 :=
    List.length_erase_of_mem hm
  have hp := List.length_pos_of_mem hm
  have hb := s.bounded
  simp only [size, without]
  omega

/-- Inserts `c` in the place of the condition of its type. A new type in a full set is refused, or
displaces the oldest condition. -/
def insert (s : ConditionSet) (c : Condition) (overflow : OverflowRule) :
    Except ConditionSetFull ConditionSet :=
  if present : c.type ∈ s.types then .ok (s.replace c)
  else if room : s.size < maxConditions then .ok (s.append c present room)
  else
    match overflow with
    | .reject => .error ⟨c.type⟩
    | .displaceOldest =>
      match oldest : Condition.oldest? s.conditions with
      | none => .error ⟨c.type⟩
      | some d =>
        .ok ((s.without d).append c (not_mem_types_without d present) (size_without_lt oldest))

/-- Takes out the condition of the type `type`, if there is one. -/
def extract? (s : ConditionSet) (type : String) : Option (Condition × ConditionSet) :=
  (s.get? type).map fun c => (c, s.without c)

/-- Each condition whose status is the same as in `previous` keeps the time it started at there. -/
def inheritTimes (s previous : ConditionSet) : ConditionSet :=
  s.mapKeepingType
    (fun c =>
      match previous.get? c.type with
      | some prior =>
        if prior.status = c.status then { c with lastTransition := prior.lastTransition } else c
      | none => c)
    fun c => by
      split
      · split <;> rfl
      · rfl

/-- Adds a condition of a type that must be new. -/
def insertNew (s : ConditionSet) (c : Condition) : Except InvalidConditions ConditionSet :=
  if c.type ∈ s.types then .error (.duplicateType c.type)
  else (s.insert c .reject).mapError .exceeded

/-- The set of `conditions`, in their order. -/
def ofConditions (conditions : List Condition) : Except InvalidConditions ConditionSet :=
  conditions.foldlM insertNew empty

/-- Adds a stored condition, whose status must be known and whose type must be new. -/
def insertStored (s : ConditionSet) (stored : StoredCondition) :
    Except InvalidConditions ConditionSet :=
  match Condition.ofStored? stored with
  | none => .error (.unknownStatus stored.type stored.status)
  | some c => s.insertNew c

/-- The set that a stored list holds. Nothing is ever displaced: a list that breaks the bounds is
refused. -/
def ofStored (stored : List StoredCondition) : Except InvalidConditions ConditionSet :=
  stored.foldlM insertStored empty

def toStored (s : ConditionSet) : List StoredCondition := s.conditions.map Condition.toStored

/-- Inserting replaces a condition of the type in place; else appends while there is room; else
follows the overflow policy. -/
theorem insert_eq (s : ConditionSet) (c : Condition) (overflow : OverflowRule) :
    (s.insert c overflow).map conditions =
      if c.type ∈ s.types then
        .ok (s.conditions.map fun d => if d.type = c.type then c else d)
      else if s.size < maxConditions then .ok (s.conditions ++ [c])
      else
        match overflow, Condition.oldest? s.conditions with
        | .displaceOldest, some d => .ok (s.conditions.erase d ++ [c])
        | _, _ => .error ⟨c.type⟩ := by
  unfold insert
  split
  · rfl
  · split
    · rfl
    · cases overflow with
      | reject => rfl
      | displaceOldest =>
        simp only
        split <;> simp_all [Except.map, append, without]

/-- A full set refuses a new type, which the error names. -/
theorem insert_of_full {s : ConditionSet} {c : Condition} (absent : c.type ∉ s.types)
    (full : ¬ s.size < maxConditions) : s.insert c .reject = .error ⟨c.type⟩ := by
  rw [insert, dif_neg absent, dif_neg full]

end ConditionSet
end PolicyAttachment
