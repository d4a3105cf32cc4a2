import PolicyAttachment.Condition.Basic
import PolicyAttachment.Policy.Written
import PolicyAttachment.Watched

/-!
# Status changes

What is to be written to the API server: the status of a policy, conditional on the version it was
computed for, or the condition on a Service or Gateway that some policy could not record it. A
status patch is a change in the form in which it is sent.
-/

namespace PolicyAttachment
set_option autoImplicit false

/-- The object that a status patch is for. -/
structure ResourceId where
  ns : String
  group : String
  kind : String
  name : String
deriving DecidableEq, Repr

namespace ResourceId

instance : Ord ResourceId where
  compare := compareLex (compareOn ns) <| compareLex (compareOn group) <|
    compareLex (compareOn kind) (compareOn name)

def describe (r : ResourceId) : String :=
  qualifiedKind r.group r.kind ++ " " ++ r.ns ++ "/" ++ r.name

end ResourceId

/-- How a patch is combined with the object: members replaced, or the writer's own fields applied.
-/
inductive PatchMode where
  | merge
  | apply
deriving DecidableEq, Repr

/-- A patch of an object's status. -/
structure StatusPatch where
  id : ResourceId
  mode : PatchMode
  body : Json
deriving Repr

/-- A change of status. -/
inductive StatusChange where
  /-- The status of a policy, valid for the version it was computed for if that is known. -/
  | policy (kind : PolicyKind) (id : PolicyId) (version : Option String) (status : WrittenStatus)
  /-- The condition on a target of a given API version, or its removal. -/
  | ancestor (apiVersion : String) (target : Target) (condition : Option Condition)
deriving DecidableEq, Repr

/-- The API version of a target that can carry a condition of ours: a Service or a Gateway. -/
def Target.apiVersion? (t : Target) : Option String :=
  if GroupKind.service.covers t.group t.kind then some WatchedKind.service.apiVersion
  else if GroupKind.gateway.covers t.group t.kind then some WatchedKind.gateway.apiVersion
  else none

namespace StatusChange

/-- Shows `condition` on a target, or clears what was shown, where that can be done. -/
def flag? (target : Target) (condition : Option Condition) : Option StatusChange :=
  target.apiVersion?.map fun apiVersion => .ancestor apiVersion target condition

/-- The patch that makes a change. -/
def toPatch : StatusChange → StatusPatch
  | policy kind id version status =>
    { id := ⟨id.ns, policyGroup, kind.name, id.name⟩
      mode := .merge
      body := .obj ([("apiVersion", .str policyApiVersion), ("kind", .str kind.name),
          ("name", .str id.name), ("status", status.toJson)]
        ++ Json.given "metadata" (fun v => .obj [("resourceVersion", .str v)]) version) }
  | ancestor apiVersion target condition =>
    { id := ⟨target.ns, target.group, target.kind, target.name⟩
      mode := .apply
      body := .obj [("apiVersion", .str apiVersion), ("kind", .str target.kind),
        ("metadata", .obj [("name", .str target.name), ("namespace", .str target.ns)]),
        ("status", .obj [("conditions",
          Json.ofList (fun c : Condition => c.toStored.toJson) condition.toList)])] }

end StatusChange
end PolicyAttachment
