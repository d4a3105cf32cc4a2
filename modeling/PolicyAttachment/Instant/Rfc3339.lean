import PolicyAttachment.Instant.Basic
import PolicyAttachment.Instant.Calendar
import PolicyAttachment.Text.Blank
import PolicyAttachment.Text.Decimal

/-!
# Time strings

Instants are read from a lenient form of RFC 3339 text. Beyond the standard, blanks may stand
between the parts, numbers may go without leading zeros, a year may have a sign and then any number
of digits, and an offset may go without its colon. Of a fraction nine digits count, and a sixtieth
second is kept as a leap second.

Instants are written in universal time, either without a fraction or with six digits of it. A year
outside 0..9999 is written with a sign.
-/

namespace PolicyAttachment.Instant
set_option autoImplicit false

open Text (number? padded skipBlanks)

/-- The number after any blanks. -/
def part? (limit : Nat) (cs : List Char) : Option (Nat × List Char) :=
  number? limit (skipBlanks cs)

/-- The rest after any blanks and `mark`. -/
def mark? (mark : Char) (cs : List Char) : Option (List Char) :=
  match skipBlanks cs with
  | c :: cs => if c = mark then some cs else none
  | [] => none

/-- A year: up to four digits, or a sign and any number of them. -/
def year? (cs : List Char) : Option (Int × List Char) :=
  match skipBlanks cs with
  | '-' :: cs => (number? cs.length cs).map fun (n, cs) => (-n, cs)
  | '+' :: cs => (number? cs.length cs).map fun (n, cs) => (n, cs)
  | cs => (number? 4 cs).map fun (n, cs) => (n, cs)

/-- A date of the calendar in a year that has instants. -/
def date? (cs : List Char) : Option (Date × List Char) := do
  let (year, cs) ← year? cs
  let (month, cs) ← part? 2 (← mark? '-' cs)
  let (day, cs) ← part? 2 (← mark? '-' cs)
  let date : Date := ⟨year, month, day⟩
  if earliestYear ≤ year ∧ year ≤ latestYear ∧ date.isValid then some (date, cs) else none

/-- The nanoseconds of an optional fraction, whose digits after the ninth are dropped. -/
def fraction? : List Char → Option (Nat × List Char)
  | '.' :: cs =>
    match cs.takeWhile Char.isDigit with
    | [] => none
    | ds => some (Text.ofDigits ((ds ++ List.replicate 9 '0').take 9), cs.dropWhile Char.isDigit)
  | cs => some (0, cs)

/-- The seconds since midnight and the nanoseconds into the last of them, which tell a sixtieth
second by being a thousand million or more. -/
def timeOfDay? (cs : List Char) : Option (Nat × Nat × List Char) := do
  let (hour, cs) ← part? 2 cs
  let (minute, cs) ← part? 2 (← mark? ':' cs)
  let (second, cs) ← part? 2 (← mark? ':' cs)
  let (nanosecond, cs) ← fraction? cs
  if 24 ≤ hour ∨ 60 ≤ minute ∨ 61 ≤ second then none
  else if second = 60 then
    some (hour * 3600 + minute * 60 + 59, nanosPerSecond + nanosecond, cs)
  else some (hour * 3600 + minute * 60 + second, nanosecond, cs)

/-- The number that exactly two digits spell. -/
def twoDigits? : List Char → Option (Nat × List Char)
  | c :: d :: cs => if c.isDigit && d.isDigit then some (Text.ofDigits [c, d], cs) else none
  | _ => none

/-- Hours and minutes as seconds, with colons or blanks between them. -/
def distance? (cs : List Char) : Option (Nat × List Char) := do
  let (hours, cs) ← twoDigits? cs
  let (minutes, cs) ← twoDigits? (cs.dropWhile fun c => c == ':' || Text.isBlank c)
  if 24 ≤ hours ∨ 60 ≤ minutes then none else some (hours * 3600 + minutes * 60, cs)

/-- The seconds by which local time is ahead of universal time. -/
def offset? (cs : List Char) : Option (Int × List Char) :=
  if (cs.take 3).map Char.toUpper = ['U', 'T', 'C'] then some (0, cs.drop 3)
  else
    match cs with
    | 'Z' :: cs | 'z' :: cs => some (0, cs)
    | '+' :: cs => (distance? cs).map fun (n, cs) => (n, cs)
    | '-' :: cs | '\u2212' :: cs => (distance? cs).map fun (n, cs) => (-n, cs)
    | _ => none

/-- The rest after the character between a date and a time. -/
def separator? : List Char → Option (List Char)
  | 'T' :: cs | 't' :: cs | ' ' :: cs => some cs
  | _ => none

/-- The instant that a time string denotes. -/
def parse? (text : String) : Option Instant := do
  let (date, cs) ← date? text.toList
  let (second, nanosecond, cs) ← timeOfDay? (← separator? cs)
  let (offset, cs) ← offset? (skipBlanks cs)
  if (skipBlanks cs).isEmpty then
    ofParts? (date.toDays * secondsPerDay + second - offset) nanosecond
  else none

def yearText (year : Int) : List Char :=
  if 0 ≤ year ∧ year ≤ 9999 then padded 4 year.toNat
  else (if year < 0 then '-' else '+') :: padded 4 year.natAbs

/-- The text up to the second, without the offset. -/
def secondText (t : Instant) : List Char :=
  let date := Date.ofDays (t.second / secondsPerDay)
  let rest := (t.second % secondsPerDay).toNat
  let second := rest % 60 + if t.isLeap then 1 else 0
  yearText date.year ++ '-' :: padded 2 date.month ++ '-' :: padded 2 date.day ++ 'T' ::
    padded 2 (rest / 3600) ++ ':' :: padded 2 (rest / 60 % 60) ++ ':' :: padded 2 second

/-- The time string of an instant, its fraction cut off. -/
def format (t : Instant) : String := String.ofList (t.secondText ++ ['Z'])

/-- The time string of an instant with six digits of its fraction. -/
def formatMicros (t : Instant) : String :=
  String.ofList
    (t.secondText ++ '.' :: padded 6 (t.nanosecond % nanosPerSecond / 1000) ++ ['Z'])

end PolicyAttachment.Instant
