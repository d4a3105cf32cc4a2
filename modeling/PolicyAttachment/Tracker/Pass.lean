import PolicyAttachment.Tracker.Basic

/-!
# Passes over policies

A pass over a kind of policies computes the status of each anew and enqueues those that differ from
what is stored. A status that is already on its way for the same version is only enqueued again when
asked to. Afterwards the conditions on ancestors that could not be recorded are brought up to date.
-/

namespace PolicyAttachment
set_option autoImplicit false

/-- A policy's state after a pass, and the ancestors that found no room in it with the condition to
show on each. -/
structure Review where
  state : PolicyRecord
  blocked : List (Target × Condition)

namespace Review

/-- Records the report for one ancestor. -/
def record (reporter : Reporter) (ref : PolicyKey) (generation : Option Int) (now : Instant)
    (acc : Register × List (Target × Condition)) (e : AncestryEntry) :
    Register × List (Target × Condition) :=
  match reporter.reportUnder e.ancestor.ancestorRef e.target e.attachment [] generation now with
  | .error _ => acc
  | .ok report =>
    match acc.1.record report with
    | .ok (_, register) => (register, acc.2)
    | .error _ =>
      (acc.1, acc.2 ++ [(e.ancestor, Unrecordable.condition ref.kind.name ref.id now)])

/-- Records the reports for all ancestors and takes out our entries for any other. -/
def recordAll (reporter : Reporter) (ref : PolicyKey) (generation : Option Int) (now : Instant)
    (register : Register) (entries : List AncestryEntry) : Register × List (Target × Condition) :=
  let (register, blocked) :=
    entries.foldl (record reporter ref generation now) (register, [])
  let current := entries.map fun e => e.ancestor.ancestorRef
  ((register.withdrawExcept reporter.controller fun a => current.contains a).2, blocked)

end Review

namespace Tracker

/-- Computes the status of one policy. -/
def review (tr : Tracker) (now : Instant) (ref : PolicyKey) (s : PolicyRecord) : Review :=
  let attachments := tr.attachments ref s.facts
  let (register, blocked) :=
    if ref.kind.reportsByAncestor then
      Review.recordAll tr.reporter ref s.facts.generation now s.register
        (AncestryEntry.ofAttachments tr.routes.values attachments)
    else (s.register, [])
  let conditions :=
    if ref.kind.reportsAsWhole then
      let attached := Attachment.overall attachments s.facts.generation now
      (s.conditions.withAttached attached).inheritTimes s.conditions
    else s.conditions
  { state := { s with register, conditions }, blocked }

/-- A policy whose computed status differs from the stored one, with its version and status. -/
structure Due where
  ref : PolicyKey
  version : Option String
  status : WrittenStatus
deriving DecidableEq

/-- Whether a policy's status is to be sent. -/
def due? (retry : Bool) (ref : PolicyKey) (s : PolicyRecord) : Option Due :=
  let status := s.status ref.kind
  if status = s.stored then none
  else if retry ∨ s.pending ≠ some (s.facts.resourceVersion, status) then
    some ⟨ref, s.facts.resourceVersion, status⟩
  else none

/-- Marks an ancestor as not recorded by a policy. -/
def mark (marks : Table Target Marks) (ancestor : Target) (ref : PolicyKey)
    (condition : Condition) : Table Target Marks :=
  marks.insert ancestor (((marks.get? ancestor).getD .empty).insert ref condition)

/-- The marks after a pass over `kind`: those of other kinds, and one per blocked ancestor. -/
def remark (marks : Table Target Marks) (kind : PolicyKind)
    (blocked : List (Target × PolicyKey × Condition)) : Table Target Marks :=
  let kept := marks.mapValues fun _ ms => ms.filter fun ref _ => ref.kind != kind
  let all := blocked.foldl (fun marks (ancestor, ref, condition) =>
    mark marks ancestor ref condition) kept
  all.filter fun _ ms => !ms.isEmpty

/-- Enqueues a policy's status and remembers it as pending if it was taken in. -/
def send (leads : Bool) (tr : Tracker) (due : Due) : Tracker :=
  let (sent, queue) :=
    tr.queue.offer leads (.policy due.ref.kind due.ref.id due.version due.status)
  if sent then
    match tr.policies.get? due.ref with
    | some s =>
      { tr with
        queue
        policies :=
          tr.policies.insert due.ref { s with pending := some (due.version, due.status) } }
    | none => { tr with queue }
  else { tr with queue }

/-- The review of a policy in a pass over `kind`, which leaves the other kinds alone. -/
def reviewIn (tr : Tracker) (now : Instant) (kind : PolicyKind) (ref : PolicyKey)
    (s : PolicyRecord) : Review :=
  if ref.kind = kind then tr.review now ref s else { state := s, blocked := [] }

def reviewsIn (tr : Tracker) (now : Instant) (kind : PolicyKind) : Table PolicyKey Review :=
  tr.policies.mapValues (tr.reviewIn now kind)

/-- The ancestors that found no room, with the policy and the condition to show on each. -/
def allBlocked (reviews : Table PolicyKey Review) : List (Target × PolicyKey × Condition) :=
  reviews.entries.flatMap fun (ref, r) =>
    r.blocked.map fun (ancestor, condition) => (ancestor, ref, condition)

/-- The statuses of policies of a kind that are to be sent. -/
def allDue (retry : Bool) (kind : PolicyKind) (policies : Table PolicyKey PolicyRecord) :
    List Due :=
  policies.entries.filterMap fun (ref, s) => if ref.kind = kind then due? retry ref s else none

/-- Computes the status of every policy of a kind and enqueues what differs from the stored one. -/
def passOver (m : Moment) (retry : Bool) (tr : Tracker) (kind : PolicyKind) : Tracker :=
  let reviews := tr.reviewsIn m.now kind
  let policies := reviews.mapValues fun _ r => r.state
  let blocked := allBlocked reviews
  (allDue retry kind policies).foldl (send m.leads)
    { tr with
      policies
      marks := remark tr.marks kind blocked
      turnedAway := tr.turnedAway + blocked.length }

/-- Shows a condition on an ancestor, unless it is there already and need not be repeated. -/
def flag (leads force : Bool) (tr : Tracker) (desired : Target × Condition) : Tracker :=
  let (ancestor, condition) := desired
  if !force && tr.flagged.get? ancestor == some condition.message then tr
  else
    match StatusChange.flag? ancestor (some condition) with
    | none => tr
    | some change =>
      let (sent, queue) := tr.queue.offer leads change
      if sent then { tr with queue, flagged := tr.flagged.insert ancestor condition.message }
      else { tr with queue }

/-- Clears the condition on an ancestor. -/
def unflag (leads : Bool) (tr : Tracker) (ancestor : Target) : Tracker :=
  match StatusChange.flag? ancestor none with
  | none => { tr with flagged := tr.flagged.erase ancestor }
  | some change =>
    let (sent, queue) := tr.queue.offer leads change
    if sent then { tr with queue, flagged := tr.flagged.erase ancestor } else { tr with queue }

/-- Brings the conditions on ancestors in step with the marks: those whose message changed, or all
of them if `force` is set. -/
def syncFlags (m : Moment) (force : Bool) (tr : Tracker) : Tracker :=
  let desired := tr.marks.entries.filterMap fun (ancestor, marks) =>
    marks.first?.map fun condition => (ancestor, condition)
  let shown := desired.foldl (flag m.leads force) tr
  let stale := shown.flagged.keys.filter fun ancestor => !shown.marks.contains ancestor
  stale.foldl (unflag m.leads) shown

/-- Passes over the given kinds. -/
def pass (m : Moment) (kinds : List PolicyKind) (tr : Tracker) : Tracker :=
  if kinds.isEmpty then tr
  else (kinds.foldl (passOver m false) tr).syncFlags m false

/-- Passes over all kinds and sends again whatever is not stored. Conditions on ancestors are
repeated only when the lease changed hands. -/
def fullPass (m : Moment) (leaseChanged : Bool) (tr : Tracker) : Tracker :=
  (PolicyKind.all.foldl (passOver m true) tr).syncFlags m leaseChanged

end Tracker
end PolicyAttachment
