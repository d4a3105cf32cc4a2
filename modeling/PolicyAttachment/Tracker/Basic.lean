import PolicyAttachment.Tracker.Ancestry
import PolicyAttachment.Tracker.Conditions
import PolicyAttachment.Tracker.Queue
import PolicyAttachment.Register.Report

/-!
# The tracker

The tracker holds the policies and the objects they depend on, and what has been computed and sent
for each. What a policy's status should be follows from the facts in it; the registers and
conditions hold what it currently is.
-/

namespace PolicyAttachment
set_option autoImplicit false

/-- A policy of some kind. -/
structure PolicyKey where
  kind : PolicyKind
  id : PolicyId
deriving DecidableEq, Repr

instance : Ord PolicyKey where
  compare := compareLex (compareOn PolicyKey.kind) (compareOn PolicyKey.id)

/-- What the tracker holds about one policy. -/
structure PolicyRecord where
  facts : PolicyFacts
  register : Register
  /-- The conditions of the policy as a whole, those of others included. -/
  conditions : ConditionSet
  /-- The status last seen on the object. -/
  stored : WrittenStatus
  /-- The status last enqueued, with the version it was computed for. -/
  pending : Option (Option String × WrittenStatus)

/-- The policies that could not record an ancestor, with the condition that each would show on it.
-/
abbrev Marks := Table PolicyKey Condition

/-- When something happens, and whether this instance leads then. -/
structure Moment where
  now : Instant
  leads : Bool
deriving DecidableEq, Repr

structure Tracker where
  reporter : Reporter
  policies : Table PolicyKey PolicyRecord
  /-- The targets that exist. -/
  targets : Table Target Unit
  routes : Table Target RouteLinks
  /-- The ancestors that some policy could not record. -/
  marks : Table Target Marks
  /-- The message last shown on each ancestor. -/
  flagged : Table Target String
  queue : Queue
  /-- How often an ancestor found no room in a policy's status. -/
  turnedAway : Nat

namespace PolicyRecord

/-- The status that has been computed. -/
def status (kind : PolicyKind) (s : PolicyRecord) : WrittenStatus :=
  .of kind s.register.toStatus s.conditions.toStored

/-- The state of a policy seen for the first time. A stored status that is no register keeps only
what others wrote in it. -/
def first (controller : ControllerName) (kind : PolicyKind) (facts : PolicyFacts) :
    PolicyRecord where
  facts
  register :=
    match Register.ofStatus facts.storedAncestors with
    | .ok r => r
    | .error _ => (Register.empty.takeOver controller facts.storedAncestors).2
  conditions := .readable facts.storedConditions
  stored := .of kind facts.storedAncestors facts.storedConditions
  pending := none

/-- Whether a policy seen again gives no reason to compute its status anew. -/
def isUnchanged (old new : PolicyRecord) : Bool :=
  new.conditions = old.conditions && old.stored = new.stored
    && old.facts.resourceVersion = new.facts.resourceVersion
    && old.facts.targets = new.facts.targets
    && old.facts.created = new.facts.created
    && old.facts.generation = new.facts.generation
    && old.facts.invalid = new.facts.invalid

/-- The state of a policy seen again, and whether anything about it changed. -/
def seen (controller : ControllerName) (kind : PolicyKind) (facts : PolicyFacts)
    (old : PolicyRecord) : Bool × PolicyRecord :=
  let (foreignChanged, register) := old.register.takeOver controller facts.storedAncestors
  let new : PolicyRecord :=
    { facts, register
      conditions := old.conditions.merge facts.storedConditions
      stored := .of kind facts.storedAncestors facts.storedConditions
      pending := old.pending }
  (foreignChanged || !isUnchanged old new, new)

end PolicyRecord

namespace Marks

/-- The smaller of two marks. -/
def smaller (a b : PolicyKey × Condition) : PolicyKey × Condition :=
  if (compare b.1 a.1).isLT then b else a

/-- The condition of the smallest policy. -/
def first? (marks : Marks) : Option Condition :=
  match marks.entries with
  | [] => none
  | m :: ms => some (ms.foldl smaller m).2

end Marks

namespace Tracker

def empty (reporter : Reporter) (capacity : Nat) : Tracker where
  reporter
  policies := .empty
  targets := .empty
  routes := .empty
  marks := .empty
  flagged := .empty
  queue := .ofCapacity capacity
  turnedAway := 0

/-- The policies of a kind that name `target`. -/
def contenders (tr : Tracker) (kind : PolicyKind) (target : Target) : List Contender :=
  tr.policies.entries.filterMap fun (ref, s) =>
    if ref.kind = kind ∧ target ∈ s.facts.targets then
      some { id := ref.id, created := s.facts.created, invalid := s.facts.invalid }
    else none

/-- The outcome for every policy of a kind that names `target`. -/
def contest (tr : Tracker) (kind : PolicyKind) (target : Target) : Contest :=
  .ofContenders tr.targets.contains target (tr.contenders kind target)

/-- The outcomes for a policy on each of its targets. -/
def attachments (tr : Tracker) (ref : PolicyKey) (facts : PolicyFacts) :
    List (Target × Attachment) :=
  facts.targets.map fun target =>
    (target, ((tr.contest ref.kind target).get? ref.id).getD .targetNotFound)

end Tracker
end PolicyAttachment
