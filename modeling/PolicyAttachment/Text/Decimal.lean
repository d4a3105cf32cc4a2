/-!
# Decimal numbers

Digits and the numbers they spell. Leading zeros do not matter when a number is read, and are added
up to a given width when one is written.
-/

namespace PolicyAttachment.Text
set_option autoImplicit false

/-- The number that digits spell. -/
def ofDigits (ds : List Char) : Nat :=
  ds.foldl (fun n c => n * 10 + (c.toNat - '0'.toNat)) 0

/-- The number at the front of `cs`, of at least one and at most `limit` digits, and what follows.
-/
def number? (limit : Nat) (cs : List Char) : Option (Nat × List Char) :=
  match (cs.take limit).takeWhile Char.isDigit with
  | [] => none
  | ds => some (ofDigits ds, cs.drop ds.length)

/-- The digits of `n`, with leading zeros up to `width` digits. -/
def padded (width n : Nat) : List Char :=
  let ds := Nat.toDigits 10 n
  List.replicate (width - ds.length) '0' ++ ds

theorem ofDigits_append_one (ds : List Char) (d : Char) :
    ofDigits (ds ++ [d]) = ofDigits ds * 10 + (d.toNat - '0'.toNat) := by
  simp [ofDigits, List.foldl_append]

end PolicyAttachment.Text
