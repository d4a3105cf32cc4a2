import PolicyAttachment.Condition.Set
import PolicyAttachment.Attachment

/-!
# Conditions of a policy as a whole

Conditions at the top of a policy's status are shared with others: only the one called `Attached` is
ours, and when there is no room for it the oldest of the others gives way.
-/

namespace PolicyAttachment
set_option autoImplicit false

namespace ConditionSet

/-- The set that a stored list holds, or the empty one if the list breaks the rules. -/
def readable (stored : List StoredCondition) : ConditionSet :=
  match ofStored stored with
  | .ok s => s
  | .error _ => empty

/-- Records our condition. In a set full of others' conditions the oldest gives way. -/
def withAttached (s : ConditionSet) (attached : Condition) : ConditionSet :=
  match s.insert attached .reject with
  | .ok s => s
  | .error _ =>
    match s.insert attached .displaceOldest with
    | .ok s => s
    | .error _ => s

/-- The stored conditions in their order, with our own as last computed. -/
def merge (current : ConditionSet) (stored : List StoredCondition) : ConditionSet :=
  match current.get? attachedType with
  | some attached => (readable stored).withAttached attached
  | none => readable stored

end ConditionSet

/-- The outcome for a policy as a whole: the outcome on its only target, the number of targets it is
attached to, or why it is not attached to the first. -/
def Attachment.overall (attachments : List (Target × Attachment)) (generation : Option Int)
    (now : Instant) : Condition :=
  match attachments with
  | [] =>
    .startingAt now attachedType .fails Attachment.targetNotFound.reason "Policy has no targets"
      generation
  | [(target, attachment)] => attachment.condition target generation now
  | (target, attachment) :: rest =>
    let total := rest.length + 1
    let attached := (((target, attachment) :: rest).filter fun a => a.2.isAttached).length
    if attached = 0 then attachment.condition target generation now
    else
      .startingAt now attachedType .holds Attachment.attached.reason
        ("Policy is attached to " ++ toString attached ++ " of " ++ toString total ++ " targets")
        generation

end PolicyAttachment
