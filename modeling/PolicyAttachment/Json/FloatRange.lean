import PolicyAttachment.Text.Decimal

/-!
# The range of floats

A number with a fraction, an exponent or too many digits is held as a 64-bit float, if it has one.
It is the product of its leading digits, as far as a 64-bit word holds them, and of a power of ten;
both are rounded to a float before they are multiplied, and so the largest numbers are found out of
range a little early.
-/

namespace PolicyAttachment.Json
set_option autoImplicit false

namespace FloatRange

/-- The 53 leading binary digits of `n`, with zeros behind them: the nearest such number, and of two
equally near the one whose last digit is even. -/
def rounded (n : Nat) : Nat :=
  let unit := Nat.pow 2 (n.log2 - 52)
  let kept := n / unit
  let rest := 2 * (n % unit)
  if rest < unit then kept * unit
  else if unit < rest then (kept + 1) * unit
  else (kept + kept % 2) * unit

/-- The least number that no float is nearest to. -/
def limit : Nat := Nat.pow 2 1024 - Nat.pow 2 970

/-- The leading digits, put behind `n` as long as a 64-bit word holds the result, and the digits
that are left. -/
def leading (n : Nat) : List Char → Nat × List Char
  | [] => (n, [])
  | d :: ds =>
    let longer := n * 10 + Text.ofDigits [d]
    if longer < UInt64.size then leading longer ds else (n, d :: ds)

/-- Whether `significand` times ten to the `exponent` is beyond all floats. -/
def exceeded (significand : Nat) (exponent : Int) : Bool :=
  significand != 0 && (308 < exponent
    || (0 ≤ exponent && limit ≤ rounded significand * rounded (Nat.pow 10 exponent.toNat)))

/-- Whether a number is beyond all floats, by the digits of its whole part and of its fraction and
by its exponent. -/
def beyond (whole fraction : List Char) (exponent : Int) : Bool :=
  let (n, wholeRest) := leading 0 whole
  let (n, fractionRest) := leading n fraction
  exceeded n (exponent + wholeRest.length - (fraction.length - fractionRest.length))

end FloatRange
end PolicyAttachment.Json
