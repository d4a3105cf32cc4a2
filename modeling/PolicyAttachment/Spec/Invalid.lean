import PolicyAttachment.Spec.HealthCheck.Basic
import PolicyAttachment.Text.Quoted

/-!
# Invalid specs

Why the spec of a policy cannot be implemented, whatever other policies there are, and the single
checks that find it out. A check passes with `.ok ()`; an absent value passes every check.
-/

namespace PolicyAttachment
set_option autoImplicit false

/-- Why a spec is invalid. -/
inductive InvalidSpec where
  | outOfRange (field : String) (low high value : Int)
  | unsupportedValue (field expected value : String)
  | malformed (field reason : String)
  | timeoutExceedsInterval (timeout interval : Int)
  | healthCheck (error : UnresolvedHealthCheck)
  | targetRefCount (limit count : Nat)
  | unsupportedTarget (kind expected : String)
  | partialIapCredentials
deriving DecidableEq, Repr

namespace InvalidSpec

def message : InvalidSpec → String
  | outOfRange field low high value =>
    field ++ " must be between " ++ toString low ++ " and " ++ toString high ++ ", got "
      ++ toString value
  | unsupportedValue field expected value =>
    field ++ " must be one of " ++ expected ++ ", got " ++ Text.quoted value
  | malformed field reason => field ++ " is malformed: " ++ reason
  | timeoutExceedsInterval timeout interval =>
    "timeoutSec (" ++ toString timeout ++ ") must not exceed checkIntervalSec ("
      ++ toString interval ++ ")"
  | healthCheck error => "invalid health check: " ++ error.message
  | targetRefCount limit count =>
    "targetRefs must contain between 1 and " ++ toString limit ++ " entries, got "
      ++ toString count
  | unsupportedTarget kind expected =>
    "target " ++ kind ++ " is not supported; expected " ++ expected
  | partialIapCredentials =>
    "iap.clientID and iap.oauth2ClientSecret must be specified together"

end InvalidSpec

namespace Spec

/-- A number lies between `low` and `high`. -/
def requireRange (field : String) (value : Option Int) (low high : Int) : Except InvalidSpec Unit :=
  match value with
  | some n => if low ≤ n ∧ n ≤ high then .ok () else .error (.outOfRange field low high n)
  | none => .ok ()

/-- A text is one of `allowed`, which messages list with commas. -/
def requireOneOf (field : String) (value : Option String) (allowed : List String) :
    Except InvalidSpec Unit :=
  match value with
  | some s =>
    if s ∈ allowed then .ok ()
    else .error (.unsupportedValue field (", ".intercalate allowed) s)
  | none => .ok ()

/-- A text has at most `limit` bytes. -/
def requireLength (field : String) (value : Option String) (limit : Nat) :
    Except InvalidSpec Unit :=
  match value with
  | some s =>
    if s.utf8ByteSize ≤ limit then .ok () else .error (.outOfRange field 0 limit s.utf8ByteSize)
  | none => .ok ()

/-- A text has at most `limit` bytes and only ASCII characters. -/
def requireAscii (field : String) (value : Option String) (limit : Nat) :
    Except InvalidSpec Unit := do
  requireLength field value limit
  match value with
  | some s =>
    if s.toList.all fun c => c.toNat < 128 then .ok ()
    else .error (.malformed field "must only contain ASCII characters")
  | none => .ok ()

end Spec
end PolicyAttachment
