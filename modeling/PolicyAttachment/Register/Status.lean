import PolicyAttachment.Register.Foreign

/-!
# Registers and stored status

A register is read from the stored status of a policy and written back to it. An entry is known if
its controller name and its conditions read; otherwise it stays verbatim. Writing gives group and
kind of a known entry's ancestor explicitly.
-/

namespace PolicyAttachment
set_option autoImplicit false

namespace Entry

/-- The key and the conditions of a stored entry, if both read. -/
def known? (entry : AncestorStatus) : Option Entry :=
  match ControllerName.parse entry.controllerName, ConditionSet.ofStored entry.conditions with
  | .ok controller, .ok conditions =>
    some (.known ⟨.ofParent entry.ancestorRef, controller⟩ conditions)
  | _, _ => none

def ofStatus (entry : AncestorStatus) : Entry := (known? entry).getD (.verbatim entry)

def toStatus : Entry → AncestorStatus
  | known key conditions =>
    { ancestorRef := key.ancestor.toParent
      controllerName := key.controller.text
      conditions := conditions.toStored }
  | verbatim entry => entry

end Entry

namespace Register

/-- The register of a stored status: its entries, those of all controllers, in order. -/
def ofStatus (status : StatusByAncestor) : Except InvalidRegister Register :=
  ofEntries (status.ancestors.map Entry.ofStatus)

/-- The stored form of a register. -/
def toStatus (r : Register) : StatusByAncestor := ⟨r.entries.map Entry.toStatus⟩

/-- Takes over the entries of other controllers than `ours` from a stored status, and tells whether
anything changed. -/
def takeOver (r : Register) (ours : ControllerName) (status : StatusByAncestor) :
    Bool × Register :=
  r.mergeForeign ours
    ((status.ancestors.filter fun entry => entry.controllerName != ours.text).map Entry.ofStatus)

end Register
end PolicyAttachment
