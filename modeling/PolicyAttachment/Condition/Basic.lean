import PolicyAttachment.Instant.Json
import PolicyAttachment.Text.Quoted

/-!
# Conditions

A condition states one aspect of an object: its type, whether it holds, and since when. In its
stored form the status is any text; a condition in use has one of three statuses. A new condition
starts at a whole second, since that is all its stored form keeps.
-/

namespace PolicyAttachment
set_option autoImplicit false

/-- Whether a condition holds. -/
inductive ConditionStatus where
  | holds
  | fails
  | unknown
deriving DecidableEq, Repr

namespace ConditionStatus

def text : ConditionStatus → String
  | holds => "True"
  | fails => "False"
  | unknown => "Unknown"

def parse? (s : String) : Option ConditionStatus :=
  if s = "True" then some holds
  else if s = "False" then some fails
  else if s = "Unknown" then some unknown
  else none

def ofBool (b : Bool) : ConditionStatus := if b then holds else fails

theorem parse?_text (s : ConditionStatus) : parse? s.text = some s := by
  cases s <;> decide

/-- Every status has one spelling. -/
theorem text_of_parse? {s : String} {status : ConditionStatus} (h : parse? s = some status) :
    status.text = s := by
  unfold parse? at h
  split at h
  · cases h
    simp [text, *]
  · split at h
    · cases h
      simp [text, *]
    · split at h
      · cases h
        simp [text, *]
      · nomatch h

end ConditionStatus

/-- A condition as it is stored on an object. -/
structure StoredCondition where
  type : String
  status : String
  reason : String
  message : String
  lastTransition : Instant
  generation : Option Int
deriving DecidableEq, Repr

namespace StoredCondition

/-- The generation is left out when it is absent. -/
def toJson (c : StoredCondition) : Json :=
  .obj ([("type", .str c.type), ("status", .str c.status), ("reason", .str c.reason),
    ("message", .str c.message), ("lastTransitionTime", c.lastTransition.toJson)]
    ++ Json.given "observedGeneration" .int c.generation)

/-- A text that reads as empty when it is absent. -/
def text? (members : Json.Members) (name : String) : Option String :=
  (members.last name Json.string?).map (·.getD "")

/-- The time of the last transition has to be given, and is never `null`. -/
def time? (members : Json.Members) : Option Instant := do
  let times ← (members.valuesOf "lastTransitionTime").mapM Instant.ofJson?
  times.getLast?

def ofJson? (j : Json) : Option StoredCondition := do
  let members ← j.members?
  let type ← text? members "type"
  let status ← text? members "status"
  let reason ← text? members "reason"
  let message ← text? members "message"
  let lastTransition ← time? members
  let generation ← members.last "observedGeneration" Json.int64?
  some { type, status, reason, message, lastTransition, generation }

/-- What is left of a condition once it is written: times lose their fraction. -/
def written (c : StoredCondition) : StoredCondition :=
  { c with lastTransition := c.lastTransition.truncated }

end StoredCondition

/-- A condition in use. -/
structure Condition where
  type : String
  status : ConditionStatus
  reason : String
  message : String
  lastTransition : Instant
  generation : Option Int
deriving DecidableEq, Repr

namespace Condition

/-- A condition that starts at the second of `now`. -/
def startingAt (now : Instant) (type : String) (status : ConditionStatus) (reason message : String)
    (generation : Option Int) : Condition :=
  { type, status, reason, message, lastTransition := now.truncated, generation }

def toStored (c : Condition) : StoredCondition :=
  { type := c.type, status := c.status.text, reason := c.reason, message := c.message,
    lastTransition := c.lastTransition, generation := c.generation }

/-- The condition a stored one describes, if its status is known. -/
def ofStored? (c : StoredCondition) : Option Condition :=
  (ConditionStatus.parse? c.status).map fun status =>
    { type := c.type, status, reason := c.reason, message := c.message,
      lastTransition := c.lastTransition, generation := c.generation }

theorem ofStored?_toStored (c : Condition) : ofStored? c.toStored = some c := by
  simp [ofStored?, toStored, ConditionStatus.parse?_text]

/-- What reads is stored again as it was. -/
theorem toStored_of_ofStored? {stored : StoredCondition} {c : Condition}
    (h : ofStored? stored = some c) : c.toStored = stored := by
  unfold ofStored? at h
  obtain ⟨status, hs, rfl⟩ := Option.map_eq_some_iff.1 h
  simp [toStored, ConditionStatus.text_of_parse? hs]

end Condition

/-- The type of the condition that a report starts with. Where later conditions displace the oldest, it
may be lost again. -/
def attachedType : String := "Attached"

/-- The type of the condition on an object whose policy could not record it. -/
def unimplementableType : String := "PolicyUnimplementable"

end PolicyAttachment
