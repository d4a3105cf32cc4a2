/-!
# Labels and character classes

The small grammars that names, hosts and ports share. All classes are ASCII. A label holds lowercase
letters, digits and hyphens and neither starts nor ends with a hyphen; a domain is a dot-separated
sequence of labels.
-/

namespace PolicyAttachment.Text
set_option autoImplicit false

/-- The parts of `cs` between the occurrences of `separator`: one more part than there are
separators. -/
def fields (separator : Char) : List Char → List (List Char)
  | [] => [[]]
  | c :: cs =>
    if c == separator then [] :: fields separator cs
    else
      match fields separator cs with
      | [] => [[c]]
      | field :: rest => (c :: field) :: rest

theorem fields_ne_nil (separator : Char) (cs : List Char) : fields separator cs ≠ [] := by
  cases cs with
  | nil => simp [fields]
  | cons c cs =>
    simp only [fields]
    split
    · simp
    · split <;> simp

def isLowerOrDigit (c : Char) : Bool := c.isLower || c.isDigit

def isLabelCharacter (c : Char) : Bool := isLowerOrDigit c || c == '-'

/-- Whether `cs` is a label. -/
def isLabel (cs : List Char) : Bool :=
  !cs.isEmpty && cs.all isLabelCharacter && cs.head? != some '-' && cs.getLast? != some '-'

/-- Whether `cs` is a label that starts with a letter. -/
def isPortLabel (cs : List Char) : Bool :=
  isLabel cs && cs.head?.any Char.isLower

/-- Whether `cs` is one label or several with dots between them. -/
def isDomain (cs : List Char) : Bool := (fields '.' cs).all isLabel

/-- The characters of a path: letters, digits, slashes and the marks that need no escape. -/
def isPathCharacter (c : Char) : Bool :=
  c.isAlphanum || "/-._~%!$&'()*+,;=:".toList.contains c

/-- Whether two texts agree up to the case of ASCII letters. -/
def sameIgnoringCase (s t : String) : Bool := s.toLower == t.toLower

end PolicyAttachment.Text
