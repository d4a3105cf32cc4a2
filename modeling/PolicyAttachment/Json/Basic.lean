/-!
# JSON documents

A document as the API server exchanges it. Three points matter to everything that reads one:
integers are kept apart from numbers written with a fraction or an exponent, because the fields of
an object accept only the former; the members of an object keep the order they were given in, also
where a name is given more than once; and a part of the text that is well formed but cannot be held
as a value has its place as `illegible`, so that it is refused only by those who read it.
-/

namespace PolicyAttachment
set_option autoImplicit false

/-- A JSON document. -/
inductive Json where
  | null
  | bool (value : Bool)
  /-- A number written without fraction and exponent, in the range of 64-bit words. -/
  | int (value : Int)
  /-- Any other number, by a text with a fraction or an exponent. -/
  | real (text : String)
  | str (value : String)
  | arr (items : List Json)
  | obj (members : List (String × Json))
  /-- A string with half a surrogate pair, an object with such a member name, a number beyond all
  floats, or a list or object that is nested too deeply. -/
  | illegible
deriving Repr, Inhabited

namespace Json

/-- The members of an object. -/
abbrev Members := List (String × Json)

/-- Sets the member `name`, in place if there is one. -/
def Members.insert (members : Members) (name : String) (value : Json) : Members :=
  if members.any (·.1 == name) then
    members.map fun m => if m.1 == name then (name, value) else m
  else
    members ++ [(name, value)]

/-- The member `name` of an object; nothing for a document of another shape. -/
def member? (name : String) : Json → Option Json
  | .obj members => members.lookup name
  | _ => none

/-- Replaces the member `name` of an object. -/
def setMember (j : Json) (name : String) (value : Json) : Json :=
  match j with
  | .obj members => .obj (Members.insert members name value)
  | other => other

/-- An optional value that is written as `null` when it is absent. -/
def ofOption {α : Type} (encode : α → Json) : Option α → Json
  | none => .null
  | some a => encode a

/-- A member that is left out when its value is absent. -/
def given {α : Type} (name : String) (encode : α → Json) : Option α → Members
  | none => []
  | some a => [(name, encode a)]

/-- A list. -/
def ofList {α : Type} (encode : α → Json) (items : List α) : Json :=
  .arr (items.map encode)

/-- A list member that is left out when the list is empty. -/
def givenList {α : Type} (name : String) (encode : α → Json) : List α → Members
  | [] => []
  | items => [(name, ofList encode items)]

mutual

/-- Whether all of a document can be held as a value. -/
def isLegible : Json → Bool
  | illegible => false
  | arr items => allLegible items
  | obj members => allMembersLegible members
  | _ => true

def allLegible : List Json → Bool
  | [] => true
  | item :: items => isLegible item && allLegible items

def allMembersLegible : List (String × Json) → Bool
  | [] => true
  | (_, value) :: members => isLegible value && allMembersLegible members

end

mutual

/-- The document with one member per name, which is the last one given. -/
def settled : Json → Json
  | arr items => .arr (allSettled items)
  | obj members => .obj (settledMembers [] members)
  | document => document

def allSettled : List Json → List Json
  | [] => []
  | item :: items => settled item :: allSettled items

/-- The members of an object put one after the other into those `read` before. -/
def settledMembers (read : Members) : List (String × Json) → Members
  | [] => read
  | (name, value) :: members => settledMembers (read.insert name (settled value)) members

end

end Json
end PolicyAttachment
