import PolicyAttachment.Json.Basic

/-!
# Typed reading of documents

A decoder takes a document to a value, or to nothing when the document does not have the required
shape; what exactly was wrong is never reported. Unknown members of an object are passed over. A
member is `required` (absent or `null` is refused unless the decoder takes it), `optional` (absent
and `null` both read as no value) or `defaulted` (absent reads as the default, `null` is a value
like any other); in all three cases it is refused when it is given twice. The objects that are
common to all of the API are read more leniently: a member given several times has to read each
time, and the `last` counts.

Where it does not show at once whose a part of an object is, the part is set aside and read later. A
part set aside has to be legible, and its choices are read a little more leniently.
-/

namespace PolicyAttachment.Json
set_option autoImplicit false

variable {α : Type}

def members? : Json → Option Members
  | .obj members => some members
  | _ => none

def string? : Json → Option String
  | .str s => some s
  | _ => none

def bool? : Json → Option Bool
  | .bool b => some b
  | _ => none

def items? : Json → Option (List Json)
  | .arr items => some items
  | _ => none

/-- An integer between `low` and `high`. -/
def intIn? (low high : Int) : Json → Option Int
  | .int n => if low ≤ n ∧ n ≤ high then some n else none
  | _ => none

def int64? : Json → Option Int := intIn? Int64.minValue.toInt Int64.maxValue.toInt

def int32? : Json → Option Int := intIn? Int32.minValue.toInt Int32.maxValue.toInt

/-- A natural number below `bound`. -/
def natBelow? (bound : Nat) (j : Json) : Option Nat :=
  (intIn? 0 (bound - 1) j).map Int.toNat

def word16? : Json → Option Nat := natBelow? UInt16.size

def word64? : Json → Option Nat := natBelow? UInt64.size

/-- A document that can be held as a value. -/
def legible? (j : Json) : Option Json := if j.isLegible then some j else none

/-- A list all of whose items decode. -/
def list? (decode : Json → Option α) (j : Json) : Option (List α) := do
  (← j.items?).mapM decode

/-- A value or `null`. -/
def nullable? (decode : Json → Option α) : Json → Option (Option α)
  | .null => some none
  | j => (decode j).map some

/-- The name of a choice without content: a text, or an object with one member of that name, which
is `null`. -/
def choice? : Json → Option String
  | .str name => some name
  | .obj [(name, .null)] => some name
  | _ => none

/-- The name of a choice without content that is read from a part set aside: there the content may
also be an empty object. -/
def choiceAside? : Json → Option String
  | .obj [(name, .obj [])] => some name
  | j => j.choice?

namespace Members

/-- All values that are given for the member `name`, in order. -/
def valuesOf (members : Members) (name : String) : List Json :=
  (members.filter (·.1 == name)).map (·.2)

/-- The member `name`, if there is one. One that is given twice is refused. -/
def once? (members : Members) (name : String) : Option (Option Json) :=
  match members.valuesOf name with
  | [] => some none
  | [value] => some (some value)
  | _ => none

def required (members : Members) (name : String) (decode : Json → Option α) : Option α := do
  (← members.once? name).bind decode

def optional (members : Members) (name : String) (decode : Json → Option α) :
    Option (Option α) := do
  match ← members.once? name with
  | none => some none
  | some j => nullable? decode j

def defaulted (members : Members) (name : String) (decode : Json → Option α) (default : α) :
    Option α := do
  match ← members.once? name with
  | none => some default
  | some j => decode j

/-- The last value of the member `name`, all of whose values decode; absent and `null` both read as
no value. -/
def last (members : Members) (name : String) (decode : Json → Option α) : Option (Option α) := do
  let values ← (members.valuesOf name).mapM (nullable? decode)
  some values.getLast?.join

/-- Whether all members but those called one of `names` can be held as values. -/
def legibleExcept (members : Members) (names : List String) : Bool :=
  members.all fun m => names.contains m.1 || m.2.isLegible

end Members
end PolicyAttachment.Json
