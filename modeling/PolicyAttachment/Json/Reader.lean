import PolicyAttachment.Json.Basic
import PolicyAttachment.Json.FloatRange

/-!
# Reading JSON text

A total reader for JSON text. Each rule takes the characters that are left and gives back its value
and what follows it. The rules for values call each other under a bound that the length of the text
supplies, since every second call consumes a character.

Text can be read in two ways. `scan?` takes any well-formed text and marks what cannot be held, so
that a typed reader can pass over such a part; `read?` takes only text all of which can be held, and
of several members of one name the last.
-/

namespace PolicyAttachment.Json
set_option autoImplicit false

namespace Reader

def isBlank (c : Char) : Bool :=
  c == ' ' || c == '\t' || c == '\n' || c == '\r'

def skipBlanks (cs : List Char) : List Char := cs.dropWhile isBlank

/-- The rest after the literal `word`. -/
def literal? : List Char → List Char → Option (List Char)
  | [], cs => some cs
  | w :: ws, c :: cs => if w == c then literal? ws cs else none
  | _ :: _, [] => none

def hexValue? (c : Char) : Option Nat :=
  if '0' ≤ c ∧ c ≤ '9' then some (c.toNat - '0'.toNat)
  else if 'a' ≤ c ∧ c ≤ 'f' then some (c.toNat - 'a'.toNat + 10)
  else if 'A' ≤ c ∧ c ≤ 'F' then some (c.toNat - 'A'.toNat + 10)
  else none

/-- The number that four hexadecimal digits spell. -/
def hexWord? (a b c d : Char) : Option Nat := do
  let a ← hexValue? a
  let b ← hexValue? b
  let c ← hexValue? c
  let d ← hexValue? d
  some (((a * 16 + b) * 16 + c) * 16 + d)

/-- The code of the character that a backslash and one character stand for. -/
def escaped? : Char → Option Nat
  | '"' => some '"'.toNat
  | '\\' => some '\\'.toNat
  | '/' => some '/'.toNat
  | 'b' => some 0x08
  | 'f' => some 0x0c
  | 'n' => some '\n'.toNat
  | 'r' => some '\r'.toNat
  | 't' => some '\t'.toNat
  | _ => none

/-- The codes of a string up to its closing quote, in front of which those in `read` have been read,
last one first. A code that is written as four digits may be one half of a surrogate pair. -/
def stringBody? : List Nat → List Char → Option (List Nat × List Char)
  | _, [] => none
  | read, '"' :: rest => some (read.reverse, rest)
  | read, '\\' :: 'u' :: a :: b :: c :: d :: rest =>
    match hexWord? a b c d with
    | some code => stringBody? (code :: read) rest
    | none => none
  | read, '\\' :: c :: rest =>
    match escaped? c with
    | some code => stringBody? (code :: read) rest
    | none => none
  | read, c :: rest => if c.toNat < 0x20 then none else stringBody? (c.toNat :: read) rest

def isHighSurrogate (code : Nat) : Bool := 0xD800 ≤ code && code ≤ 0xDBFF

def isLowSurrogate (code : Nat) : Bool := 0xDC00 ≤ code && code ≤ 0xDFFF

/-- The characters with the given codes after those in `read`, last one first; each two surrogates
of a pair are taken together. A surrogate without its partner is no character. -/
def characters? : List Char → List Nat → Option (List Char)
  | read, [] => some read.reverse
  | read, high :: low :: codes =>
    if isHighSurrogate high then
      if isLowSurrogate low then
        let code := 0x10000 + (high - 0xD800) * 0x400 + (low - 0xDC00)
        characters? (Char.ofNat code :: read) codes
      else none
    else if isLowSurrogate high then none
    else characters? (Char.ofNat high :: read) (low :: codes)
  | read, [code] =>
    if isHighSurrogate code || isLowSurrogate code then none
    else some (Char.ofNat code :: read).reverse

/-- A string, after its opening quote. It has no text if that cannot be held. -/
def string? (cs : List Char) : Option (Option String × List Char) :=
  (stringBody? [] cs).map fun (codes, rest) => ((characters? [] codes).map String.ofList, rest)

/-- At least one digit. -/
def digits? (cs : List Char) : Option (List Char × List Char) :=
  match cs.takeWhile Char.isDigit with
  | [] => none
  | ds => some (ds, cs.dropWhile Char.isDigit)

/-- The whole part of a number has no leading zero. -/
def whole? (cs : List Char) : Option (List Char × List Char) :=
  match cs with
  | '0' :: rest => some (['0'], rest)
  | _ => digits? cs

def fraction? (cs : List Char) : Option (List Char × List Char) :=
  match cs with
  | '.' :: rest => (digits? rest).map fun (ds, rest) => ('.' :: ds, rest)
  | _ => some ([], cs)

def exponent? (cs : List Char) : Option (List Char × List Char) :=
  match cs with
  | e :: rest =>
    if e == 'e' || e == 'E' then
      match rest with
      | '+' :: rest => (digits? rest).map fun (ds, rest) => (e :: '+' :: ds, rest)
      | '-' :: rest => (digits? rest).map fun (ds, rest) => (e :: '-' :: ds, rest)
      | _ => (digits? rest).map fun (ds, rest) => (e :: ds, rest)
    else some ([], cs)
  | [] => some ([], cs)

/-- The value of an exponent, which is zero when there is none. -/
def exponentValue : List Char → Int
  | _ :: '-' :: ds => -(Text.ofDigits ds : Int)
  | _ :: '+' :: ds => Text.ofDigits ds
  | _ :: ds => Text.ofDigits ds
  | [] => 0

/-- A number that is no integer, if any float is near it. One that is written like an integer gets a
fraction, so that it is told from one. -/
def real (negative : Bool) (whole fraction exponent : List Char) : Json :=
  if FloatRange.beyond whole (fraction.drop 1) (exponentValue exponent) then .illegible
  else
    let sign := if negative then ['-'] else []
    let fraction := if fraction.isEmpty && exponent.isEmpty then ['.', '0'] else fraction
    .real (String.ofList (sign ++ whole ++ fraction ++ exponent))

/-- A number counts as an integer when it has neither fraction nor exponent, fits a signed or
unsigned 64-bit word and is not a negative zero. -/
def number (negative : Bool) (whole fraction exponent : List Char) : Json :=
  let n := Text.ofDigits whole
  if !fraction.isEmpty || !exponent.isEmpty then real negative whole fraction exponent
  else if negative then
    if n = 0 ∨ -n < Int64.minValue.toInt then real negative whole fraction exponent else .int (-n)
  else if UInt64.size ≤ n then real negative whole fraction exponent
  else .int n

def number? (cs : List Char) : Option (Json × List Char) := do
  let (negative, rest) := match cs with
    | '-' :: rest => (true, rest)
    | _ => (false, cs)
  let (whole, rest) ← whole? rest
  let (fraction, rest) ← fraction? rest
  let (exponent, rest) ← exponent? rest
  some (number negative whole fraction exponent, rest)

/-- How deep lists and objects may be nested. -/
def maxDepth : Nat := 127

/-- A list or object with room for itself and what it holds, if there is any room. -/
def within (room : Nat) (document : Json) : Json := if room = 0 then .illegible else document

/-- An object, if all its member names can be held. -/
def ofNamed (members : List (Option String × Json)) : Json :=
  match members.mapM fun m => m.1.map fun name => (name, m.2) with
  | some members => .obj members
  | none => .illegible

mutual

/-- One value, after any blanks, where lists and objects may still be nested `room` deep. -/
def value? : Nat → Nat → List Char → Option (Json × List Char)
  | 0, _, _ => none
  | fuel + 1, room, cs =>
    match skipBlanks cs with
    | [] => none
    | 'n' :: rest => (literal? ['u', 'l', 'l'] rest).map (Json.null, ·)
    | 't' :: rest => (literal? ['r', 'u', 'e'] rest).map (Json.bool true, ·)
    | 'f' :: rest => (literal? ['a', 'l', 's', 'e'] rest).map (Json.bool false, ·)
    | '"' :: rest => (string? rest).map fun (s, rest) => ((s.map Json.str).getD .illegible, rest)
    | '[' :: rest =>
      match skipBlanks rest with
      | ']' :: rest => some (within room (.arr []), rest)
      | rest =>
        (elements? fuel (room - 1) rest).map fun (items, rest) => (within room (.arr items), rest)
    | '\x7b' :: rest =>
      match skipBlanks rest with
      | '\x7d' :: rest => some (within room (.obj []), rest)
      | rest =>
        (members? fuel (room - 1) rest).map fun (members, rest) =>
          (within room (ofNamed members), rest)
    | rest => number? rest

/-- The items of a list that is not empty, up to the closing bracket. -/
def elements? : Nat → Nat → List Char → Option (List Json × List Char)
  | 0, _, _ => none
  | fuel + 1, room, cs => do
    let (item, rest) ← value? fuel room cs
    match skipBlanks rest with
    | ']' :: rest => some ([item], rest)
    | ',' :: rest => (elements? fuel room rest).map fun (items, rest) => (item :: items, rest)
    | _ => none

/-- The members of an object that is not empty, up to the closing brace. -/
def members? : Nat → Nat → List Char → Option (List (Option String × Json) × List Char)
  | 0, _, _ => none
  | fuel + 1, room, cs =>
    match skipBlanks cs with
    | '"' :: rest => do
      let (name, rest) ← string? rest
      match skipBlanks rest with
      | ':' :: rest =>
        let (value, rest) ← value? fuel room rest
        match skipBlanks rest with
        | '\x7d' :: rest => some ([(name, value)], rest)
        | ',' :: rest =>
          (members? fuel room rest).map fun (members, rest) => ((name, value) :: members, rest)
        | _ => none
      | _ => none
    | _ => none

end

end Reader

/-- The document in well-formed text, with nothing but blanks around it. -/
def scan? (text : String) : Option Json :=
  let cs := text.toList
  match Reader.value? (2 * cs.length + 2) Reader.maxDepth cs with
  | some (document, rest) => if (Reader.skipBlanks rest).isEmpty then some document else none
  | none => none

/-- The document that `text` holds, if all of it can be held: of several members of one name the
last. -/
def read? (text : String) : Option Json := do
  let document ← scan? text
  if document.isLegible then some document.settled else none

end PolicyAttachment.Json
