import PolicyAttachment.Json.Basic

/-!
# JSON text

Compact text of a document, with the members of each object sorted by name. What cannot be held as a
value is written as half a surrogate pair, which cannot be held either.
-/

namespace PolicyAttachment.Json
set_option autoImplicit false

namespace Printer

def hexDigit (n : Nat) : Char :=
  if n < 10 then Char.ofNat ('0'.toNat + n) else Char.ofNat ('a'.toNat + (n - 10))

/-- A character inside a string: quotes, backslashes and control characters are escaped. -/
def character (c : Char) : List Char :=
  if c == '"' then ['\\', '"']
  else if c == '\\' then ['\\', '\\']
  else if c == '\n' then ['\\', 'n']
  else if c == '\r' then ['\\', 'r']
  else if c == '\t' then ['\\', 't']
  else if c.toNat < 0x20 then
    ['\\', 'u', '0', '0', hexDigit (c.toNat / 16), hexDigit (c.toNat % 16)]
  else [c]

def string (s : String) : String :=
  "\"" ++ String.ofList (s.toList.flatMap character) ++ "\""

def byName (a b : String × String) : Bool := (compare a.1 b.1).isLE

mutual

def value : Json → String
  | .null => "null"
  | .bool b => if b then "true" else "false"
  | .int n => toString n
  | .real text => text
  | .str s => string s
  | .arr items => "[" ++ ",".intercalate (values items) ++ "]"
  | .illegible => "\"\\ud800\""
  | .obj members =>
    let written := (namedValues members).mergeSort byName
    "\x7b" ++ ",".intercalate (written.map fun m => string m.1 ++ ":" ++ m.2) ++ "\x7d"

def values : List Json → List String
  | [] => []
  | item :: items => value item :: values items

def namedValues : List (String × Json) → List (String × String)
  | [] => []
  | (name, item) :: members => (name, value item) :: namedValues members

end

end Printer

/-- The text of a document. -/
def print (document : Json) : String := Printer.value document

/-- The text that a document stands for: a string stands for itself, any other for its text. -/
def bareText : Json → String
  | .str s => s
  | document => document.print

end PolicyAttachment.Json
