import PolicyAttachment.Claim
import PolicyAttachment.Instant.Json
import PolicyAttachment.Watched

/-!
# The lease

Instances compete for the right to write status through a lease object, which names its holder, when
the holder last renewed it and for how long. A lease is claimed as long as that time has not passed;
its holder renews it in the last second of it.
-/

namespace PolicyAttachment
set_option autoImplicit false

/-- The terms of a lease. -/
structure LeaseTerms where
  holder : Option String
  renewed : Option Instant
  durationSeconds : Option Int
  transitions : Option Int
deriving DecidableEq, Repr

/-- A lease object, as far as it matters who holds it. -/
structure Lease where
  version : Option String
  terms : Option LeaseTerms
deriving DecidableEq, Repr

namespace Lease

def apiVersion : String := "coordination.k8s.io/v1"

/-- The name of the lease on writing status. -/
def name : String := "gke-policy-controller-status"

/-- How many seconds a claim lasts. -/
def durationSeconds : Int := 30

/-- How many seconds before its end a claim is renewed. -/
def graceSeconds : Int := 1

def terms? (j : Json) : Option LeaseTerms := do
  let members ← j.members?
  let holder ← members.last "holderIdentity" Json.string?
  let renewed ← members.last "renewTime" Instant.ofJson?
  let _ ← members.last "acquireTime" Instant.ofJson?
  let durationSeconds ← members.last "leaseDurationSeconds" Json.int32?
  let transitions ← members.last "leaseTransitions" Json.int32?
  some { holder, renewed, durationSeconds, transitions }

def ofJson? (j : Json) : Option Lease := do
  let members ← j.members?
  WatchedObject.fixedText? members "apiVersion" apiVersion
  WatchedObject.fixedText? members "kind" "Lease"
  let metadata ← members.last "metadata" Metadata.ofJson?
  let terms ← members.last "spec" terms?
  some { version := metadata.bind Metadata.resourceVersion, terms }

end Lease

namespace LeaseTerms

/-- Who holds the lease, if anybody does at `now`. -/
def claim? (t : LeaseTerms) (now : Instant) : Option Claim := do
  let holder ← t.holder
  let renewed ← t.renewed
  let seconds ← t.durationSeconds
  let expiry := renewed.addSeconds seconds
  if now.before expiry then some { holder, expiry := some expiry } else none

/-- How often the lease changed hands. The count is kept in sixteen bits; one that does not fit
counts as none. -/
def changes (t : LeaseTerms) : UInt16 :=
  match t.transitions with
  | some n => if 0 ≤ n ∧ n < UInt16.size then n.toNat.toUInt16 else 0
  | none => 0

end LeaseTerms

/-- What an instance does about a lease. -/
inductive LeaseMove where
  /-- Nothing: the claim stands. -/
  | keep (claim : Claim)
  /-- Our claim is about to end and is renewed. -/
  | renew
  /-- Nobody holds the lease: it changes hands for the given time. -/
  | acquire (transition : UInt16)
deriving DecidableEq, Repr

namespace LeaseMove

/-- Whether a claim is in its last second. -/
def isEnding (claim : Claim) (now : Instant) : Bool :=
  match claim.expiry with
  | some expiry => !now.before (expiry.addSeconds (-Lease.graceSeconds))
  | none => false

/-- What the instance `hostname` does about the lease at `now`. -/
def of (hostname : String) (terms : LeaseTerms) (now : Instant) : LeaseMove :=
  match terms.claim? now with
  | some claim => if claim.holder = hostname ∧ isEnding claim now then .renew else .keep claim
  | none => .acquire (terms.changes + 1)

end LeaseMove
end PolicyAttachment
