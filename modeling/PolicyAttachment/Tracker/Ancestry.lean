import PolicyAttachment.Attachment
import PolicyAttachment.Route

/-!
# Ancestry

Each target of a policy is reported under its ancestors. An ancestor that several targets share is
reported once, for the first of them that the policy is attached to, or else for the first.
-/

namespace PolicyAttachment
set_option autoImplicit false

/-- One ancestor with the target and the outcome it is reported for. -/
structure AncestryEntry where
  ancestor : Target
  target : Target
  attachment : Attachment
deriving DecidableEq, Repr

namespace AncestryEntry

/-- Adds an entry, or lets it take the place of one for the same ancestor that is not attached. -/
def add (entries : List AncestryEntry) (new : AncestryEntry) : List AncestryEntry :=
  if entries.any fun e => e.ancestor == new.ancestor then
    entries.map fun e =>
      if e.ancestor = new.ancestor ∧ !e.attachment.isAttached ∧ new.attachment.isAttached
      then new else e
  else entries ++ [new]

/-- The entries for the outcomes on a policy's targets, in order. -/
def ofAttachments (routes : List RouteLinks) (attachments : List (Target × Attachment)) :
    List AncestryEntry :=
  (attachments.flatMap fun (target, attachment) =>
    (target.ancestors routes).map fun ancestor => { ancestor, target, attachment }).foldl add []

end AncestryEntry
end PolicyAttachment
