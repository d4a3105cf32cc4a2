import PolicyAttachment.Spec.Invalid
import PolicyAttachment.Target
import PolicyAttachment.Text.Label

/-!
# Target references

A policy names its targets by group, kind and name, some kinds of policy also by namespace. The core
group has two spellings, and kinds match in any case of their letters. A reference that is accepted
is turned into the target that the watch of its kind reports.
-/

namespace PolicyAttachment
set_option autoImplicit false

/-- A kind of object with its group. -/
structure GroupKind where
  group : String
  kind : String
deriving DecidableEq, Repr

namespace GroupKind

def service : GroupKind := ⟨"", "Service"⟩

def serviceImport : GroupKind := ⟨"net.gke.io", "ServiceImport"⟩

def gateway : GroupKind := ⟨gatewayGroup, "Gateway"⟩

def httpRoute : GroupKind := ⟨gatewayGroup, "HTTPRoute"⟩

/-- The kinds of targets that are watched. -/
def watched : List GroupKind := [service, gateway, httpRoute]

/-- The name of the core group is dropped. -/
def normalGroup (group : String) : String := if group = "core" then "" else group

/-- Whether `kind` is this kind in some case of its letters, in exactly this group. -/
def covers (g : GroupKind) (group kind : String) : Bool :=
  g.group == group && Text.sameIgnoringCase g.kind kind

/-- Spells a watched kind the way its watch does; any other kind stays as it is. -/
def properKind (group kind : String) : String :=
  match watched.find? fun g => g.covers group kind with
  | some g => g.kind
  | none => kind

end GroupKind

/-- A reference to a target, possibly in another namespace. -/
structure TargetRef where
  group : String
  kind : String
  name : String
  ns : Option String
deriving DecidableEq, Repr

namespace TargetRef

def toJson (t : TargetRef) : Json :=
  .obj ([("group", .str t.group), ("kind", .str t.kind), ("name", .str t.name)]
    ++ Json.given "namespace" .str t.ns)

def ofJson? (j : Json) : Option TargetRef := do
  let members ← j.members?
  let group ← members.defaulted "group" Json.string? ""
  let kind ← members.required "kind" Json.string?
  let name ← members.required "name" Json.string?
  let ns ← members.optional "namespace" Json.string?
  some { group, kind, name, ns }

/-- The kind with its group, unless that is the core group. -/
def describeKind (t : TargetRef) : String :=
  qualifiedKind (GroupKind.normalGroup t.group) t.kind

/-- The namespace of the target, by default the policy's own. -/
def nsOr (t : TargetRef) (ownNs : String) : String := t.ns.getD ownNs

/-- The target that a reference made in the namespace `ownNs` names. -/
def target (t : TargetRef) (ownNs : String) : Target where
  group := GroupKind.normalGroup t.group
  kind := GroupKind.properKind (GroupKind.normalGroup t.group) t.kind
  ns := t.nsOr ownNs
  name := t.name

/-- The reference is to one of the kinds `allowed`, which messages call `expected`. -/
def requireKind (t : TargetRef) (allowed : List GroupKind) (expected : String) :
    Except InvalidSpec Unit :=
  if allowed.any fun g => g.covers (GroupKind.normalGroup t.group) t.kind then .ok ()
  else .error (.unsupportedTarget t.describeKind expected)

/-- The reference is to a Service or an imported one. -/
def requireBackend (t : TargetRef) : Except InvalidSpec Unit :=
  t.requireKind [.service, .serviceImport] "Service or ServiceImport"

end TargetRef

/-- A reference to a target in the policy's own namespace. -/
structure LocalTargetRef where
  group : String
  kind : String
  name : String
deriving DecidableEq, Repr

namespace LocalTargetRef

def toJson (t : LocalTargetRef) : Json :=
  .obj [("group", .str t.group), ("kind", .str t.kind), ("name", .str t.name)]

def ofJson? (j : Json) : Option LocalTargetRef := do
  let members ← j.members?
  let group ← members.defaulted "group" Json.string? ""
  let kind ← members.required "kind" Json.string?
  let name ← members.required "name" Json.string?
  some { group, kind, name }

def toTargetRef (t : LocalTargetRef) : TargetRef := ⟨t.group, t.kind, t.name, none⟩

def describeKind (t : LocalTargetRef) : String := t.toTargetRef.describeKind

/-- The name by which a group is compared: the core group has one even when it is left out. -/
def groupName (group : String) : String := if group = "" then "core" else group

/-- Whether the reference is to the kind `g`, its group and kind in any case of their letters. -/
def isTo (t : LocalTargetRef) (g : GroupKind) : Bool :=
  Text.sameIgnoringCase (groupName t.group) (groupName g.group)
    && Text.sameIgnoringCase t.kind g.kind

end LocalTargetRef
end PolicyAttachment
