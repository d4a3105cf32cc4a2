import PolicyAttachment.Instant.Json

/-!
# Shapes of documents

An object is read as a whole: a part of it that nothing depends on still has to have its shape, or
the object does not read. A shape is a test of a document. There are two kinds of objects: the
members of an `entity` may be missing, `null` or given several times, but all of their values have
the right shape; the members of a `record` are given at most once, and the required ones are given.
Unknown members are passed over in both.
-/

namespace PolicyAttachment
set_option autoImplicit false

/-- What a part of a document has to look like. -/
abbrev Shape := Json → Bool

namespace Shape

/-- Whatever a decoder takes. -/
def of {α : Type} (decode : Json → Option α) : Shape := fun j => (decode j).isSome

def text : Shape := of Json.string?

def flag : Shape := of Json.bool?

def int32 : Shape := of Json.int32?

def int64 : Shape := of Json.int64?

def word16 : Shape := of Json.word16?

def time : Shape := of Instant.ofJson?

/-- An amount of something: a count, or a share or name of it as text. -/
def int32OrText : Shape := fun j => int32 j || text j

/-- The decoder that takes documents of a shape, of which nothing else is needed. -/
def check (s : Shape) (j : Json) : Option Unit := if s j then some () else none

def orNull (s : Shape) : Shape
  | .null => true
  | j => s j

def listOf (item : Shape) : Shape
  | .arr items => items.all item
  | _ => false

/-- An object all of whose values have one shape. -/
def tableOf (value : Shape) : Shape
  | .obj members => members.all fun m => value m.2
  | _ => false

/-- Named members with their shapes. -/
abbrev Fields := List (String × Shape)

/-- Whether each value given for a known member is `null` or has its shape. -/
def entityMembers (fields : Fields) (members : Json.Members) : Bool :=
  members.all fun m =>
    match fields.lookup m.1 with
    | some s => orNull s m.2
    | none => true

def entity (fields : Fields) : Shape
  | .obj members => entityMembers fields members
  | _ => false

/-- Whether each known member is given once at most and has its shape; a required one is given and
not `null`. -/
def recordMembers (required optional : Fields) (members : Json.Members) : Bool :=
  (required.all fun f => (members.required f.1 f.2.check).isSome)
    && optional.all fun f => (members.optional f.1 f.2.check).isSome

def record (required optional : Fields) : Shape
  | .obj members => recordMembers required optional members
  | _ => false

/-- The variants of an object, by name. -/
abbrev Variants := List (String × Shape)

namespace Variants

/-- The variant of a name. -/
def named? (variants : Variants) (j : Json) : Option Shape := do
  List.lookup (← j.string?) variants

/-- The variant of a name, or of a place counted from zero. -/
def namedOrAt? (variants : Variants) : Json → Option Shape
  | .int n => if n < 0 then none else (variants[n.toNat]?).map (·.2)
  | j => variants.named? j

end Variants

/-- An object that has the shape to which `pick` takes its member `tag`. -/
def tagged (tag : String) (pick : Json → Option Shape) : Shape := fun j =>
  (j.members?.bind fun members => members.required tag pick).any fun s => s j

/-- A choice between variants, one of which the member `tag` names. -/
def variant (tag : String) (variants : Variants) : Shape := tagged tag variants.named?

/-- A choice that is part of a variant. What belongs to a variant is set aside until the name of the
variant is known, and choices set aside may also be made by place. -/
def innerVariant (tag : String) (variants : Variants) : Shape := tagged tag variants.namedOrAt?

end Shape
end PolicyAttachment
