import PolicyAttachment.Claim
import PolicyAttachment.Tracker.Event

/-!
# Sessions

An instance of the controller over time: its tracker, the current claim to the lease, and whether it
still learns of new claims. While it holds the lease, a tick of the clock and every new claim lead
to a pass over all policies; a new claim also repeats the conditions on ancestors.

An occurrence is one step. Whether the instance leads is decided once, when it begins, and holds for
everything that is sent in it; nothing is taken out of the queue before it has ended.
-/

namespace PolicyAttachment
set_option autoImplicit false

/-- What can happen to an instance. -/
inductive Occurrence where
  | event (event : Event)
  | tick
  | claimed (claim : Claim)
  /-- No new claim will come. -/
  | claimsClosed
  /-- Nobody takes changes out of the queue any more. -/
  | queueClosed
  | nothing
deriving Repr

/-- An instance of the controller. -/
structure Session where
  hostname : String
  claim : Claim
  followsClaims : Bool
  tracker : Tracker

namespace Session

def start (hostname : String) (claim : Claim) (reporter : Reporter) (capacity : Nat) : Session :=
  ⟨hostname, claim, true, .empty reporter capacity⟩

def leads (s : Session) (now : Instant) : Bool := s.claim.isCurrentFor s.hostname now

def moment (s : Session) (now : Instant) : Moment := ⟨now, s.leads now⟩

/-- Passes over all policies if this instance leads. -/
def fullPass (s : Session) (now : Instant) (leaseChanged : Bool) : Session :=
  if s.leads now then { s with tracker := s.tracker.fullPass (s.moment now) leaseChanged } else s

def step (s : Session) (now : Instant) : Occurrence → Except Unnamed Session
  | .event e => (s.tracker.handle (s.moment now) e).map fun tracker => { s with tracker }
  | .tick => .ok (if s.followsClaims then s.fullPass now false else s)
  | .claimed claim =>
    .ok (if s.followsClaims then { s with claim }.fullPass now true else s)
  | .claimsClosed => .ok { s with followsClaims := false }
  | .queueClosed => .ok { s with tracker := { s.tracker with queue := s.tracker.queue.close } }
  | .nothing => .ok s

/-- Takes the waiting changes out of the queue. -/
def drain (s : Session) : List StatusChange × Session :=
  let (changes, queue) := s.tracker.queue.drain
  (changes, { s with tracker := { s.tracker with queue } })

end Session
end PolicyAttachment
