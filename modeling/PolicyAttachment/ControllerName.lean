import PolicyAttachment.Text.Label
import PolicyAttachment.Text.Quoted

/-!
# Controller names

A controller signs its status entries with a name of the form `DOMAIN/PATH`. The domain ends at the
first slash, so it is a dot-separated sequence of labels, and the path is any non-empty text of path
characters, further slashes included.
-/

namespace PolicyAttachment
set_option autoImplicit false

namespace ControllerName

/-- The most bytes a name may have. -/
def maxBytes : Nat := 253

/-- Whether `cs` reads `DOMAIN/PATH`. -/
def hasForm (cs : List Char) : Bool :=
  Text.isDomain (cs.takeWhile (· != '/')) &&
    match cs.dropWhile (· != '/') with
    | _ :: path => !path.isEmpty && path.all Text.isPathCharacter
    | [] => false

/-- Why a text is not a controller name. -/
inductive Invalid where
  | empty
  | tooLong
  | malformed (text : String)
deriving DecidableEq, Repr

def Invalid.message : Invalid → String
  | .empty => "controller name must not be empty"
  | .tooLong => "controller name must not exceed 253 characters"
  | .malformed text =>
    "controller name " ++ Text.quoted text ++ " must be of the form DOMAIN/PATH"

/-- Whether `text` is a controller name. -/
def isValid (text : String) : Bool :=
  text != "" && text.utf8ByteSize ≤ maxBytes && hasForm text.toList

end ControllerName

/-- The name of the controller that owns a status entry. -/
structure ControllerName where
  text : String
  valid : ControllerName.isValid text = true
deriving DecidableEq

namespace ControllerName

instance : Ord ControllerName := ⟨compareOn text⟩

theorem ext_text {a b : ControllerName} (h : a.text = b.text) : a = b := by
  cases a
  cases b
  cases h
  rfl

/-- The controller name that `text` spells. -/
def parse (text : String) : Except Invalid ControllerName :=
  if h : isValid text = true then .ok ⟨text, h⟩
  else if text = "" then .error .empty
  else if maxBytes < text.utf8ByteSize then .error .tooLong
  else .error (.malformed text)

theorem parse_text (name : ControllerName) : parse name.text = .ok name := by
  simp [parse, name.valid]

/-- What reads is taken over as it is. -/
theorem text_of_parse {text : String} {name : ControllerName} (h : parse text = .ok name) :
    name.text = text := by
  unfold parse at h
  split at h
  · cases h
    rfl
  · split at h
    · nomatch h
    · split at h <;> nomatch h

end ControllerName
end PolicyAttachment
