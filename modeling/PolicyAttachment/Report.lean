import PolicyAttachment.Condition.Set
import PolicyAttachment.Attachment

/-!
# Reports

A controller reports the outcome of a policy on a target under an ancestor: the condition that tells
the outcome first, then any further conditions in the order given. Only the outcome itself may be
called `Attached`.
-/

namespace PolicyAttachment
set_option autoImplicit false

/-- Who reports, and what to do with more conditions than fit. -/
structure Reporter where
  controller : ControllerName
  overflow : OverflowRule
deriving DecidableEq

/-- The conditions that a controller reports for one ancestor. -/
structure Report where
  key : EntryKey
  conditions : ConditionSet
deriving DecidableEq

namespace Reporter

/-- Adds one further condition, stamped with the policy's generation. -/
def addExtra (overflow : OverflowRule) (generation : Option Int) (s : ConditionSet)
    (c : Condition) : Except ConditionSetFull ConditionSet :=
  if c.type = attachedType then .ok s else s.insert { c with generation } overflow

/-- Reports the outcome on `target` under `ancestor`. -/
def reportUnder (r : Reporter) (ancestor : AncestorRef) (target : Target) (attachment : Attachment)
    (extra : List Condition) (generation : Option Int) (now : Instant) :
    Except ConditionSetFull Report := do
  let first ← ConditionSet.empty.insert (attachment.condition target generation now) r.overflow
  let conditions ← extra.foldlM (addExtra r.overflow generation) first
  .ok { key := ⟨ancestor, r.controller⟩, conditions }

/-- Reports the outcome on `target` under the target itself. -/
def reportUnderTarget (r : Reporter) (target : Target) (attachment : Attachment)
    (extra : List Condition) (generation : Option Int) (now : Instant) :
    Except ConditionSetFull Report :=
  r.reportUnder target.ancestorRef target attachment extra generation now

end Reporter
end PolicyAttachment
