import PolicyAttachment.Ancestor
import PolicyAttachment.Condition.Basic

/-!
# Stored status

The status of a policy in its stored form. Its ancestor list is in effect a table keyed by ancestor
and controller; its conditions speak of the policy as a whole. Which of the two lists a kind of
policy has, and whether an empty one is written, is fixed by the kind.
-/

namespace PolicyAttachment
set_option autoImplicit false

/-- What one controller wrote about one ancestor. -/
structure AncestorStatus where
  ancestorRef : ParentReference
  controllerName : String
  conditions : List StoredCondition
deriving DecidableEq, Repr

namespace AncestorStatus

def toJson (s : AncestorStatus) : Json :=
  .obj ([("ancestorRef", s.ancestorRef.toJson), ("controllerName", .str s.controllerName)]
    ++ Json.givenList "conditions" StoredCondition.toJson s.conditions)

def ofJson? (j : Json) : Option AncestorStatus := do
  let members ← j.members?
  let ancestorRef ← members.required "ancestorRef" ParentReference.ofJson?
  let controllerName ← members.required "controllerName" Json.string?
  let conditions ← members.defaulted "conditions" (Json.list? StoredCondition.ofJson?) []
  some { ancestorRef, controllerName, conditions }

/-- What is left of an entry once it is written. -/
def written (s : AncestorStatus) : AncestorStatus :=
  { s with conditions := s.conditions.map StoredCondition.written }

end AncestorStatus

/-- The status of policies that only report per ancestor. The list is written even when empty. -/
structure StatusByAncestor where
  ancestors : List AncestorStatus
deriving DecidableEq, Repr, Inhabited

namespace StatusByAncestor

def toJson (s : StatusByAncestor) : Json :=
  .obj [("ancestors", Json.ofList AncestorStatus.toJson s.ancestors)]

def ofJson? (j : Json) : Option StatusByAncestor := do
  let members ← j.members?
  let ancestors ← members.defaulted "ancestors" (Json.list? AncestorStatus.ofJson?) []
  some { ancestors }

end StatusByAncestor

/-- The status of policies that only report as a whole. -/
structure StatusAsWhole where
  conditions : List StoredCondition
deriving DecidableEq, Repr, Inhabited

namespace StatusAsWhole

def toJson (s : StatusAsWhole) : Json :=
  .obj (Json.givenList "conditions" StoredCondition.toJson s.conditions)

def ofJson? (j : Json) : Option StatusAsWhole := do
  let members ← j.members?
  let conditions ← members.defaulted "conditions" (Json.list? StoredCondition.ofJson?) []
  some { conditions }

end StatusAsWhole

/-- The status of policies that report both ways. Empty lists are left out. -/
structure StatusBothWays where
  ancestors : List AncestorStatus
  conditions : List StoredCondition
deriving DecidableEq, Repr, Inhabited

namespace StatusBothWays

def toJson (s : StatusBothWays) : Json :=
  .obj (Json.givenList "ancestors" AncestorStatus.toJson s.ancestors
    ++ Json.givenList "conditions" StoredCondition.toJson s.conditions)

def ofJson? (j : Json) : Option StatusBothWays := do
  let members ← j.members?
  let ancestors ← members.defaulted "ancestors" (Json.list? AncestorStatus.ofJson?) []
  let conditions ← members.defaulted "conditions" (Json.list? StoredCondition.ofJson?) []
  some { ancestors, conditions }

end StatusBothWays
end PolicyAttachment
