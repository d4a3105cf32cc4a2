import PolicyAttachment.Register.Status
import PolicyAttachment.Report

/-!
# Recording reports

A controller records what it reports for an ancestor, takes single entries back, and drops every
entry of its own that is out of date. A condition whose status did not change keeps the time it
started at.
-/

namespace PolicyAttachment
set_option autoImplicit false

/-- A policy cannot record status for a new ancestor. -/
structure Unrecordable where
  source : RegisterFull
deriving DecidableEq

namespace Unrecordable

def ancestor (e : Unrecordable) : AncestorRef := e.source.key.ancestor

def message (e : Unrecordable) : String :=
  "policy cannot be implemented on " ++ e.ancestor.describe

/-- The condition to show on the ancestor that could not be recorded for a policy of the kind
`kind`. -/
def condition (kind : String) (policy : PolicyId) (now : Instant) : Condition :=
  .startingAt now unimplementableType .holds "AncestorStatusFull"
    (kind ++ " " ++ policy.describe ++ " already reports status for 16 ancestors") none

end Unrecordable

namespace Register

/-- Records the conditions that `controller` reports for `ancestor`. -/
def report (r : Register) (controller : ControllerName) (ancestor : AncestorRef)
    (conditions : ConditionSet) : Except Unrecordable (Recorded × Register) :=
  let key : EntryKey := ⟨ancestor, controller⟩
  let inherited :=
    match r.get? key with
    | some previous => conditions.inheritTimes previous
    | none => conditions
  (r.put key inherited).mapError Unrecordable.mk

def record (r : Register) (report : Report) : Except Unrecordable (Recorded × Register) :=
  r.report report.key.controller report.key.ancestor report.conditions

/-- Takes out the entry that `controller` reported for `ancestor`; whether there was one. -/
def withdraw (r : Register) (controller : ControllerName) (ancestor : AncestorRef) :
    Bool × Register :=
  match r.extract? ⟨ancestor, controller⟩ with
  | some (_, r) => (true, r)
  | none => (false, r)

/-- Takes out every entry of `controller` whose ancestor is not to be kept; their ancestors in
order. -/
def withdrawExcept (r : Register) (controller : ControllerName) (keep : AncestorRef → Bool) :
    List AncestorRef × Register :=
  let stale := (r.ancestorsOf controller).filter fun a => !keep a
  (stale, stale.foldl (fun r a => (r.withdraw controller a).2) r)

end Register
end PolicyAttachment
