import PolicyAttachment.Json.Decode
import PolicyAttachment.Json.Printer
import PolicyAttachment.Json.Reader
import PolicyAttachment.Request
import PolicyAttachment.StatusChange

/-!
# The writer

The writer takes patches out of the queue one by one and sends them, as long as this instance holds
the lease. Every patch it takes is counted, and every patch it tries to send is counted once more by
what came of it: it succeeded, it conflicted with another change, it failed, or no answer came in
time.
-/

namespace PolicyAttachment
set_option autoImplicit false

/-- What comes back for a patch. -/
inductive Reply where
  /-- No answer ever. -/
  | hang
  /-- The connection fails. -/
  | refused
  /-- An answer with an HTTP code and a text, after some milliseconds. -/
  | answer (code : Int) (text : String) (delay : Int)
deriving DecidableEq, Repr

/-- What becomes of a patch. -/
inductive Outcome where
  | succeeded
  | conflict
  | failed
  | timedOut
deriving DecidableEq, Repr

/-- How many patches were taken from the queue, how many of them dropped for want of the lease, and
what became of those sent. -/
structure WriterTally where
  dequeued : Nat
  skipped : Nat
  succeeded : Nat
  conflict : Nat
  failed : Nat
  timedOut : Nat
deriving DecidableEq, Repr, Inhabited

namespace WriterTally

def zero : WriterTally := ⟨0, 0, 0, 0, 0, 0⟩

def count (t : WriterTally) : Outcome → WriterTally
  | .succeeded => { t with succeeded := t.succeeded + 1 }
  | .conflict => { t with conflict := t.conflict + 1 }
  | .failed => { t with failed := t.failed + 1 }
  | .timedOut => { t with timedOut := t.timedOut + 1 }

end WriterTally

namespace StatusPatch

/-- The kind of object a patch is for, if the writer knows it. -/
def target? (id : ResourceId) : Option WatchedKind :=
  match PolicyKind.ofName? id.kind with
  | some kind => if id.group = policyGroup then some (.policy kind) else none
  | none =>
    if id.group = GroupKind.service.group ∧ id.kind = GroupKind.service.kind then some .service
    else if id.group = GroupKind.gateway.group ∧ id.kind = GroupKind.gateway.kind then
      some .gateway
    else none

/-- Where objects of a kind live in a namespace. -/
def collection (ns : String) : WatchedKind → String
  | .service => "/api/v1/namespaces/" ++ ns ++ "/services/"
  | .gateway => "/apis/" ++ WatchedKind.gatewayApiVersion ++ "/namespaces/" ++ ns ++ "/gateways/"
  | .httpRoute =>
    "/apis/" ++ WatchedKind.gatewayApiVersion ++ "/namespaces/" ++ ns ++ "/httproutes/"
  | .policy kind =>
    "/apis/" ++ policyApiVersion ++ "/namespaces/" ++ ns ++ "/" ++ kind.plural ++ "/"

/-- The request that sends a patch for an object of a kind, if it can be sent. -/
def request? (p : StatusPatch) (kind : WatchedKind) : Option Request :=
  let path := collection p.id.ns kind ++ p.id.name ++ "/status"
  let (force, type) := match p.mode with
    | .apply => (true, PatchType.apply)
    | .merge => (false, PatchType.merge)
  match Uri.sent? (path ++ Request.patchQuery force policyGroup) with
  | .ok uri => some (.patch uri type p.body)
  | .error _ => none

end StatusPatch

namespace Reply

/-- The error code that the text of an answer gives. -/
def statedCode? (text : String) : Option Nat := do
  let members ← (← Json.scan? text).members?
  let _ ← members.required "status" Json.string?
  let _ ← members.defaulted "message" Json.string? ""
  let _ ← members.defaulted "reason" Json.string? ""
  members.required "code" Json.word16?

/-- What an answer means for a patch of an object of some kind. An error is judged by the code that
its text states, or else by the HTTP code; any other answer has to hold the object. -/
def judge (kind : WatchedKind) (code : Int) (text : String) : Outcome :=
  if 400 ≤ code ∧ code < 600 then
    let stated : Int := match statedCode? text with
      | some n => n
      | none => code
    if stated = 409 then .conflict else .failed
  else if ((Json.scan? text).bind (WatchedObject.ofJson? kind)).isSome then .succeeded
  else .failed

/-- What becomes of a patch for which an answer may take `timeout` milliseconds. -/
def outcome (kind : WatchedKind) (timeout : Nat) : Reply → Outcome
  | hang => .timedOut
  | refused => .failed
  | answer code text delay => if (timeout : Int) < delay then .timedOut else judge kind code text

end Reply

/-- The writer of one instance. -/
structure Writer where
  /-- How many milliseconds an answer may take. -/
  timeout : Nat
  tally : WriterTally
deriving DecidableEq, Repr

namespace Writer

def start (timeout : Nat) : Writer := ⟨timeout, .zero⟩

/-- Takes one patch from the queue. Without the lease it is dropped; a patch for an object of
another kind than policies, Services and Gateways is passed over, and one that no request can be
made for fails; any other is sent, and `reply` comes back. If answers may take no time at all, the
time is over before the request is sent. -/
def write (w : Writer) (leads : Bool) (p : StatusPatch) (reply : Reply) :
    Option Request × Writer :=
  let tally := { w.tally with dequeued := w.tally.dequeued + 1 }
  if leads then
    match StatusPatch.target? p.id with
    | some kind =>
      match p.request? kind with
      | none => (none, { w with tally := tally.count .failed })
      | some request =>
        if w.timeout = 0 then (none, { w with tally := tally.count .timedOut })
        else (some request, { w with tally := tally.count (reply.outcome kind w.timeout) })
    | none => (none, { w with tally })
  else (none, { w with tally := { tally with skipped := tally.skipped + 1 } })

end Writer
end PolicyAttachment
