import PolicyAttachment.Text.Invisible

/-!
# Quoted text

Messages show a foreign text between double quotes. Quotes and backslashes inside get a backslash,
the four usual control characters have letters of their own, and any other character that does not
show by itself is written by its number.
-/

namespace PolicyAttachment.Text
set_option autoImplicit false

/-- A number in lowercase hexadecimal digits, without leading zeros. -/
def hexadecimal (n : Nat) : String := String.ofList (Nat.toDigits 16 n)

/-- How one character is written inside quotes. -/
def quotedCharacter (c : Char) : String :=
  match c with
  | '"' => "\\\""
  | '\\' => "\\\\"
  | '\t' => "\\t"
  | '\n' => "\\n"
  | '\r' => "\\r"
  | '\x00' => "\\0"
  | c => if isInvisible c then "\\u\x7b" ++ hexadecimal c.toNat ++ "\x7d" else c.toString

/-- A text between double quotes. -/
def quoted (s : String) : String :=
  "\"" ++ String.join (s.toList.map quotedCharacter) ++ "\""

end PolicyAttachment.Text
