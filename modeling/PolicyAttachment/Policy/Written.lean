import PolicyAttachment.StoredStatus
import PolicyAttachment.Policy.Kind

/-!
# Written status

The status of a policy as this controller writes it: whole lists, of which a kind of policy has one
or both. Since times lose their fraction on the way, statuses are compared in this form.
-/

namespace PolicyAttachment
set_option autoImplicit false

/-- A status as it is written: the lists that the kind of policy has, times without fractions. Two
statuses are written alike exactly when they are equal here. -/
structure WrittenStatus where
  ancestors : Option (List AncestorStatus)
  conditions : Option (List StoredCondition)
deriving DecidableEq, Repr

namespace WrittenStatus

/-- How a policy of the kind `kind` writes these entries and conditions. -/
def of (kind : PolicyKind) (ancestors : StatusByAncestor) (conditions : List StoredCondition) :
    WrittenStatus where
  ancestors :=
    if kind.reportsByAncestor then some (ancestors.ancestors.map AncestorStatus.written) else none
  conditions :=
    if kind.reportsAsWhole then some (conditions.map StoredCondition.written) else none

def toJson (s : WrittenStatus) : Json :=
  .obj (Json.given "ancestors" (Json.ofList AncestorStatus.toJson) s.ancestors
    ++ Json.given "conditions" (Json.ofList StoredCondition.toJson) s.conditions)

end WrittenStatus

end PolicyAttachment
