import PolicyAttachment.ControllerName
import PolicyAttachment.Json.Decode

/-!
# Ancestors

A policy reports its status once per ancestor: an object above its target in the routing hierarchy,
or the target itself. A stored reference may leave out group and kind, which then name a Gateway;
here both are always given. An entry of the status is identified by its ancestor and the controller
that wrote it.
-/

namespace PolicyAttachment
set_option autoImplicit false

/-- The API group of Gateways and routes. -/
def gatewayGroup : String := "gateway.networking.k8s.io"

/-- A kind with its group, which the core group leaves out. -/
def qualifiedKind (group kind : String) : String :=
  if group = "" then kind else kind ++ "." ++ group

/-- A reference to a parent object, as it is stored. -/
structure ParentReference where
  group : Option String
  kind : Option String
  ns : Option String
  name : String
  sectionName : Option String
  port : Option Nat
deriving DecidableEq, Repr

namespace ParentReference

/-- All six members are written, the absent ones as `null`. -/
def toJson (p : ParentReference) : Json :=
  .obj [("group", Json.ofOption .str p.group), ("kind", Json.ofOption .str p.kind),
    ("namespace", Json.ofOption .str p.ns), ("name", .str p.name),
    ("sectionName", Json.ofOption .str p.sectionName),
    ("port", Json.ofOption (fun n : Nat => .int n) p.port)]

def ofJson? (j : Json) : Option ParentReference := do
  let members ← j.members?
  let group ← members.optional "group" Json.string?
  let kind ← members.optional "kind" Json.string?
  let ns ← members.optional "namespace" Json.string?
  let name ← members.required "name" Json.string?
  let sectionName ← members.optional "sectionName" Json.string?
  let port ← members.optional "port" Json.word16?
  some { group, kind, ns, name, sectionName, port }

end ParentReference

/-- An object in the hierarchy above a policy's target, or the target itself. -/
structure AncestorRef where
  group : String
  kind : String
  ns : Option String
  name : String
  sectionName : Option String
  port : Option Nat
deriving DecidableEq, Repr

namespace AncestorRef

instance : Ord AncestorRef where
  compare := compareLex (compareOn group) <| compareLex (compareOn kind) <|
    compareLex (compareOn ns) <| compareLex (compareOn name) <|
    compareLex (compareOn sectionName) (compareOn port)

/-- An absent group or kind refers to a Gateway. -/
def ofParent (p : ParentReference) : AncestorRef where
  group := p.group.getD gatewayGroup
  kind := p.kind.getD "Gateway"
  ns := p.ns
  name := p.name
  sectionName := p.sectionName
  port := p.port

def toParent (a : AncestorRef) : ParentReference where
  group := some a.group
  kind := some a.kind
  ns := a.ns
  name := a.name
  sectionName := a.sectionName
  port := a.port

@[simp] theorem ofParent_toParent (a : AncestorRef) : ofParent a.toParent = a := rfl

/-- Kind, place and section; the port is not shown. -/
def describe (a : AncestorRef) : String :=
  let place := match a.ns with
    | some ns => " " ++ ns ++ "/" ++ a.name
    | none => " " ++ a.name
  let part := match a.sectionName with
    | some part => "#" ++ part
    | none => ""
  qualifiedKind a.group a.kind ++ place ++ part

end AncestorRef

/-- The identity of one status entry. -/
structure EntryKey where
  ancestor : AncestorRef
  controller : ControllerName
deriving DecidableEq

instance : Ord EntryKey where
  compare := compareLex (compareOn EntryKey.ancestor) (compareOn EntryKey.controller)

end PolicyAttachment
