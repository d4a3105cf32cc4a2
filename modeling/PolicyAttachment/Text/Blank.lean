/-!
# Blanks

The characters that separate without showing: those of ASCII, which are all that core counts as
whitespace and three more, and the spaces and line ends of other scripts.
-/

namespace PolicyAttachment.Text
set_option autoImplicit false

/-- Ranges of code points, both ends included, in increasing order. -/
def blankRanges : List (Nat × Nat) := [
  (0x9, 0xd), (0x20, 0x20), (0x85, 0x85), (0xa0, 0xa0), (0x1680, 0x1680), (0x2000, 0x200a),
  (0x2028, 0x2029), (0x202f, 0x202f), (0x205f, 0x205f), (0x3000, 0x3000)]

def isBlank (c : Char) : Bool :=
  blankRanges.any fun r => r.1 ≤ c.toNat && c.toNat ≤ r.2

/-- The rest of `cs` after the blanks at its front. -/
def skipBlanks (cs : List Char) : List Char := cs.dropWhile isBlank

end PolicyAttachment.Text
