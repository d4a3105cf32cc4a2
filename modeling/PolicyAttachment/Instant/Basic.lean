/-!
# Instants

An instant is a whole second since 1970-01-01T00:00:00Z and the nanoseconds into it. A leap second
is kept inside the second before it, as a nanosecond part of a thousand million or more; it only
exists at the end of a minute. Instants are ordered by their second and then by their nanoseconds.
-/

namespace PolicyAttachment
set_option autoImplicit false

/-- A moment of universal time. -/
structure Instant where
  second : Int
  nanosecond : Nat
deriving DecidableEq, Repr, Inhabited

namespace Instant

instance : Ord Instant where
  compare := compareLex (compareOn Instant.second) (compareOn Instant.nanosecond)

/-- Whether `a` comes before `b`. -/
def before (a b : Instant) : Bool := (compare a b).isLT

def nanosPerSecond : Nat := 1000000000

def secondsPerDay : Int := 86400

/-- Whether the instant lies inside a leap second. -/
def isLeap (t : Instant) : Bool := nanosPerSecond ≤ t.nanosecond

/-- Cuts off the fraction of the second; a leap second stays one. -/
def truncated (t : Instant) : Instant :=
  ⟨t.second, if t.isLeap then nanosPerSecond else 0⟩

theorem isLeap_truncated (t : Instant) : t.truncated.isLeap = t.isLeap := by
  cases h : t.isLeap <;> simp [truncated, h] <;> simp [isLeap, nanosPerSecond]

theorem truncated_truncated (t : Instant) : t.truncated.truncated = t.truncated := by
  rw [truncated, isLeap_truncated, truncated]

/-- The instant `seconds` later. Any step away from a leap second leaves it: forward from the second
it is kept in, back from the one after it. -/
def addSeconds (t : Instant) (seconds : Int) : Instant :=
  if t.isLeap ∧ 0 < seconds then ⟨t.second + seconds, t.nanosecond - nanosPerSecond⟩
  else if t.isLeap ∧ seconds < 0 then ⟨t.second + 1 + seconds, t.nanosecond - nanosPerSecond⟩
  else ⟨t.second + seconds, t.nanosecond⟩

/-- The first year that has instants. -/
def earliestYear : Int := -262143

/-- The last year that has instants. -/
def latestYear : Int := 262142

/-- The first second of the first year. -/
def earliestSecond : Int := -8334601228800

/-- The last second of the last year. -/
def latestSecond : Int := 8210266876799

/-- The instant with these parts: the nanoseconds reach a thousand million only in the last second
of a minute, and the year has instants. -/
def ofParts? (second : Int) (nanosecond : Nat) : Option Instant :=
  if second < earliestSecond ∨ latestSecond < second then none
  else if nanosecond < nanosPerSecond then some ⟨second, nanosecond⟩
  else if nanosecond < 2 * nanosPerSecond ∧ second % 60 = 59 then some ⟨second, nanosecond⟩
  else none

end Instant
end PolicyAttachment
