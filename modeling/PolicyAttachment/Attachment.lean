import PolicyAttachment.Condition.Basic
import PolicyAttachment.Target

/-!
# Attachment

Several policies of one kind may name the same target; only one of them takes effect on it. The
oldest valid policy wins, ties going to the smaller id, provided the target exists. An invalid
policy never wins and never stands in another one's way.
-/

namespace PolicyAttachment
set_option autoImplicit false

/-- A policy of one kind that names a given target. -/
structure Contender where
  id : PolicyId
  created : Option Instant
  /-- Why the policy is invalid, if it is. -/
  invalid : Option String
deriving DecidableEq, Repr

namespace Contender

/-- Oldest first, those without a creation time last, then by id. -/
def precedence : Contender → Contender → Ordering :=
  compareLex (compareOn fun c => c.created.isNone) <|
    compareLex (compareOn created) (compareOn id)

def isValid (c : Contender) : Bool := c.invalid.isNone

end Contender

/-- What becomes of one policy on one target. -/
inductive Attachment where
  | attached
  | conflicted (winner : PolicyId)
  | invalid (why : String)
  | targetNotFound
deriving DecidableEq, Repr

namespace Attachment

def reason : Attachment → String
  | attached => "Attached"
  | conflicted _ => "Conflicted"
  | invalid _ => "Invalid"
  | targetNotFound => "TargetNotFound"

def isAttached : Attachment → Bool
  | attached => true
  | _ => false

def message (target : Target) : Attachment → String
  | attached => "Policy is attached to " ++ target.describe
  | conflicted winner => "Policy " ++ winner.describe ++ " takes precedence on " ++ target.describe
  | invalid why => "Policy is invalid: " ++ why
  | targetNotFound => "Target " ++ target.describe ++ " does not exist"

/-- The condition that tells the outcome. -/
def condition (a : Attachment) (target : Target) (generation : Option Int) (now : Instant) :
    Condition :=
  .startingAt now attachedType (.ofBool a.isAttached) a.reason (a.message target) generation

end Attachment

/-- What becomes of every policy that names one target: the valid ones in order of precedence, then
the invalid ones by id. -/
structure Contest where
  winner : Option PolicyId
  attachments : List (PolicyId × Attachment)
deriving DecidableEq, Repr

namespace Contest

/-- The outcome of a valid contender, given who won. -/
def outcome (winner : Option PolicyId) (c : Contender) : Attachment :=
  match winner with
  | none => .targetNotFound
  | some w => if w = c.id then .attached else .conflicted w

/-- The contest between the contenders that name `target`. -/
def ofContenders (targetExists : Target → Bool) (target : Target) (contenders : List Contender) :
    Contest :=
  let valid := (contenders.filter Contender.isValid).mergeSort fun a b => (a.precedence b).isLE
  let invalid := (contenders.filter fun c => !c.isValid).mergeSort
    fun a b => (compare a.id b.id).isLE
  let winner := if targetExists target then valid.head?.map Contender.id else none
  { winner
    attachments := valid.map (fun c => (c.id, outcome winner c))
      ++ invalid.map fun c => (c.id, .invalid (c.invalid.getD "")) }

def get? (c : Contest) (id : PolicyId) : Option Attachment := c.attachments.lookup id

end Contest
end PolicyAttachment
