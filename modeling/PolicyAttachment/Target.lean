import PolicyAttachment.Ancestor

/-!
# Targets and policies

A target is the object that a policy attaches to, and a policy is named within its kind by its
namespace and name. Both are ordered field by field, in the order of their fields.
-/

namespace PolicyAttachment
set_option autoImplicit false

/-- The object a policy attaches to. -/
structure Target where
  group : String
  kind : String
  ns : String
  name : String
deriving DecidableEq, Repr, Inhabited

namespace Target

instance : Ord Target where
  compare := compareLex (compareOn group) <| compareLex (compareOn kind) <|
    compareLex (compareOn ns) (compareOn name)

def describe (t : Target) : String :=
  qualifiedKind t.group t.kind ++ " " ++ t.ns ++ "/" ++ t.name

/-- The target as its policy's ancestor. -/
def ancestorRef (t : Target) : AncestorRef where
  group := t.group
  kind := t.kind
  ns := some t.ns
  name := t.name
  sectionName := none
  port := none

/-- Different targets are different ancestors. -/
theorem ancestorRef_inj {s t : Target} : s.ancestorRef = t.ancestorRef ↔ s = t := by
  cases s
  cases t
  simp [ancestorRef]

end Target

/-- A policy within its kind. -/
structure PolicyId where
  ns : String
  name : String
deriving DecidableEq, Repr, Inhabited

namespace PolicyId

instance : Ord PolicyId where
  compare := compareLex (compareOn ns) (compareOn name)

def describe (p : PolicyId) : String := p.ns ++ "/" ++ p.name

end PolicyId
end PolicyAttachment
