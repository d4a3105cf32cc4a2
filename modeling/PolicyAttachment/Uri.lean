/-!
# Addresses of requests

An address is a path, after a question mark a query, and after a number sign a fragment, which is
not sent. Names become part of a path as they are, so they can make an address that cannot be sent;
the values of a query are encoded.
-/

namespace PolicyAttachment
set_option autoImplicit false

/-- Why an address cannot be sent. -/
inductive InvalidUri where
  | tooLong
  | invalidCharacter
deriving DecidableEq, Repr

def InvalidUri.message : InvalidUri → String
  | tooLong => "uri too long"
  | invalidCharacter => "invalid uri character"

namespace Uri

/-- The most bytes that an address may have. -/
def maxBytes : Nat := 65534

/-- Visible ASCII characters but the number sign, the question mark, `<`, `>` and the backtick. -/
def isPathCharacter (c : Char) : Bool :=
  '!' ≤ c && c ≤ '~' && ['#', '?', '<', '>', '\x60'].all (· != c)

/-- Visible ASCII characters but the quotation mark, the number sign, `<` and `>`. -/
def isQueryCharacter (c : Char) : Bool :=
  '!' ≤ c && c ≤ '~' && ['"', '#', '<', '>'].all (· != c)

/-- What is sent of an address. -/
def sent? (text : String) : Except InvalidUri String :=
  if maxBytes < text.utf8ByteSize then .error .tooLong
  else
    let sent := text.toList.takeWhile (· != '#')
    let path := sent.takeWhile (· != '?')
    let query := (sent.dropWhile (· != '?')).drop 1
    if path.all isPathCharacter && query.all isQueryCharacter then .ok (String.ofList sent)
    else .error .invalidCharacter

/-- The path of an address. -/
def path (uri : String) : String := String.ofList (uri.toList.takeWhile (· != '?'))

def hexDigit (n : Nat) : Char :=
  if n < 10 then Char.ofNat ('0'.toNat + n) else Char.ofNat ('A'.toNat + (n - 10))

/-- A character of a query value. ASCII letters, digits and four marks stand for themselves, a plus
sign for a space, and any other character is written by its bytes. -/
def encodedCharacter (c : Char) : List Char :=
  if c.isAlphanum || ['*', '-', '.', '_'].contains c then [c]
  else if c == ' ' then ['+']
  else
    (String.utf8EncodeChar c).flatMap fun b =>
      ['%', hexDigit (b.toNat / 16), hexDigit (b.toNat % 16)]

/-- A text as the value of a query. -/
def encoded (s : String) : String := String.ofList (s.toList.flatMap encodedCharacter)

end Uri
end PolicyAttachment
