import PolicyAttachment.Instant.Basic

/-!
# Claims

Of several instances only the one that holds the lease writes status. A claim says who holds it and
until when.
-/

namespace PolicyAttachment
set_option autoImplicit false

/-- A claim to the lease; without an expiry it never ends. -/
structure Claim where
  holder : String
  expiry : Option Instant
deriving DecidableEq, Repr

namespace Claim

/-- Whether `name` holds the lease at `now`. The moment of expiry is already too late. -/
def isCurrentFor (c : Claim) (name : String) (now : Instant) : Bool :=
  c.holder == name &&
    match c.expiry with
    | none => true
    | some expiry => now.before expiry

end Claim
end PolicyAttachment
