import PolicyAttachment.Tracker.Pass
import PolicyAttachment.Watched

/-!
# Events

What the tracker does when an object appears, changes or goes. Each event leads to a pass over just
the kinds of policies that it can affect. Objects without a namespace are no business of the
tracker; one that has a namespace but no name is an error.
-/

namespace PolicyAttachment
set_option autoImplicit false

/-- An object has a namespace but no name. -/
inductive Unnamed where
  | unnamed
deriving DecidableEq, Repr

/-- An object that appeared or changed, or one that is gone. -/
inductive Event where
  | applied (object : WatchedObject)
  | deleted (kind : WatchedKind) (ns name : String)
deriving Repr

namespace Tracker

/-- The kinds of policies of which one satisfies `p`. -/
def kindsWith (tr : Tracker) (p : PolicyKey → PolicyRecord → Bool) : List PolicyKind :=
  PolicyKind.all.filter fun kind =>
    tr.policies.entries.any fun (ref, s) => ref.kind == kind && p ref s

def putPolicy (m : Moment) (tr : Tracker) (ref : PolicyKey) (facts : PolicyFacts) : Tracker :=
  let (changed, s) :=
    match tr.policies.get? ref with
    | none => (true, PolicyRecord.first tr.reporter.controller ref.kind facts)
    | some old => old.seen tr.reporter.controller ref.kind facts
  let tr := { tr with policies := tr.policies.insert ref s }
  if changed then tr.pass m [ref.kind] else tr

def dropPolicy (m : Moment) (tr : Tracker) (ref : PolicyKey) : Tracker :=
  if tr.policies.contains ref then
    { tr with policies := tr.policies.erase ref }.pass m [ref.kind]
  else tr

/-- Passes over the kinds of policies that name `target`. -/
def passAfterTarget (m : Moment) (tr : Tracker) (target : Target) : Tracker :=
  tr.pass m (tr.kindsWith fun _ s => s.facts.targets.contains target)

/-- Passes over the kinds of policies whose ancestors follow routes. -/
def passAfterRoute (m : Moment) (tr : Tracker) : Tracker :=
  tr.pass m (tr.kindsWith fun ref _ => ref.kind.reportsByAncestor)

def putTarget (m : Moment) (tr : Tracker) (target : Target) : Tracker :=
  if tr.targets.contains target then tr
  else { tr with targets := tr.targets.insert target () }.passAfterTarget m target

def dropTarget (m : Moment) (tr : Tracker) (target : Target) : Tracker :=
  if tr.targets.contains target then
    { tr with targets := tr.targets.erase target }.passAfterTarget m target
  else tr

def putRoute (m : Moment) (tr : Tracker) (route : Target) (refs : RouteLinks) : Tracker :=
  let changed := tr.routes.get? route != some refs
  let tr := { tr with routes := tr.routes.insert route refs }.putTarget m route
  if changed then tr.passAfterRoute m else tr

def dropRoute (m : Moment) (tr : Tracker) (route : Target) : Tracker :=
  let removed := tr.routes.contains route
  let tr := { tr with routes := tr.routes.erase route }.dropTarget m route
  if removed then tr.passAfterRoute m else tr

/-- An object that appeared or changed, under its namespace and name. -/
def putObject (m : Moment) (tr : Tracker) (ns name : String) : WatchedObject → Tracker
  | .service _ => tr.putTarget m ⟨"", "Service", ns, name⟩
  | .gateway _ => tr.putTarget m ⟨gatewayGroup, "Gateway", ns, name⟩
  | .httpRoute _ spec => tr.putRoute m ⟨gatewayGroup, "HTTPRoute", ns, name⟩ (.ofSpec ns spec)
  | .policy p => tr.putPolicy m ⟨p.kind, ⟨ns, name⟩⟩ (p.facts ns)

def dropObject (m : Moment) (tr : Tracker) (ns name : String) : WatchedKind → Tracker
  | .service => tr.dropTarget m ⟨"", "Service", ns, name⟩
  | .gateway => tr.dropTarget m ⟨gatewayGroup, "Gateway", ns, name⟩
  | .httpRoute => tr.dropRoute m ⟨gatewayGroup, "HTTPRoute", ns, name⟩
  | .policy kind => tr.dropPolicy m ⟨kind, ⟨ns, name⟩⟩

/-- What the tracker does on an event. -/
def handle (m : Moment) (tr : Tracker) : Event → Except Unnamed Tracker
  | .applied object =>
    match object.metadata.ns, object.metadata.name with
    | none, _ => .ok tr
    | some _, none => .error .unnamed
    | some ns, some name => .ok (tr.putObject m ns name object)
  | .deleted kind ns name => .ok (tr.dropObject m ns name kind)

end Tracker
end PolicyAttachment
