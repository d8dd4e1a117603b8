import CodeRubric.Text.Digits

/-! Decimal numerals and the binary64 number each one stands for. The first digits that fit 64 bits
are the significand; later ones count only for the magnitude. Scaling by the power of ten rounds a
second time, so a long numeral may miss the nearest number by a unit. -/
namespace CodeRubric.Decimal

structure Numeral where
  negative : Bool
  /-- The digits before the point. -/
  whole : List Char
  /-- The digits after the point; none if there is no point. -/
  fraction : List Char
  exponentNegative : Bool
  /-- The digits of the exponent; none if there is no exponent. -/
  exponent : List Char
deriving DecidableEq, Repr

/-- A sign is taken off the front of a text. -/
def takeMinus : List Char → Bool × List Char
  | '-' :: rest => (true, rest)
  | text => (false, text)

/-- The exponent mark, its sign and digits, up to the end of the text. -/
def exponentOf? : List Char → Option (Bool × List Char)
  | [] => some (false, [])
  | mark :: rest =>
    let (negative, digits) := match rest with
      | '+' :: digits => (false, digits)
      | '-' :: digits => (true, digits)
      | digits => (false, digits)
    if (mark = 'e' || mark = 'E') && !digits.isEmpty && digits.all Char.isDigit then
      some (negative, digits)
    else none

/-- The point and the digits after it; what follows them is returned too. -/
def fractionOf? : List Char → Option (List Char × List Char)
  | '.' :: rest =>
    let digits := rest.takeWhile Char.isDigit
    if digits.isEmpty then none else some (digits, rest.dropWhile Char.isDigit)
  | rest => some ([], rest)

/-- A sign or none, digits without idle zeros in front, a fraction or none, an exponent or none. -/
def Numeral.ofChars? (text : List Char) : Option Numeral := do
  let (negative, unsigned) := takeMinus text
  let whole := unsigned.takeWhile Char.isDigit
  if whole.isEmpty || (whole.head? = some '0' && whole.length ≠ 1) then none
  let (fraction, rest) ← fractionOf? (unsigned.dropWhile Char.isDigit)
  let (exponentNegative, exponent) ← exponentOf? rest
  return ⟨negative, whole, fraction, exponentNegative, exponent⟩

/-- The digits appended to a significand one by one while the result fits 64 bits, and the digits
that are left from the first one that does not fit. -/
def absorb (significand : Nat) : List Char → Nat × List Char
  | [] => (significand, [])
  | digit :: rest =>
    let next := significand * 10 + Text.digitValue digit
    if next < UInt64.size then absorb next rest else (significand, digit :: rest)

/-- The greatest power of ten that is finite. -/
def greatestPower : Nat := 308

/-- The number nearest to `10 ^ k`, for a `k` up to `greatestPower`. -/
def powerOfTen (k : Nat) : Float := Float.ofScientific 1 false k

/-- Division by `10 ^ k` in steps of at most `greatestPower`. -/
def divideByPower (x : Float) (k : Nat) : Float :=
  if k ≤ greatestPower then x / powerOfTen k
  else if x == 0 then x
  else divideByPower (x / powerOfTen greatestPower) (k - greatestPower)
termination_by k
decreasing_by simp [greatestPower] at *; omega

/-- A significand times a power of ten, unless it is too large for a finite number. -/
def scale? (significand : Nat) (exponent : Int) : Option Float :=
  let x := significand.toUInt64.toFloat
  match exponent with
  | .ofNat k =>
    if k ≤ greatestPower then
      let scaled := x * powerOfTen k
      if scaled.isInf then none else some scaled
    else if x == 0 then some x
    else none
  | .negSucc k => some (divideByPower x (k + 1))

/-- The number that a numeral stands for, if it is finite. -/
def Numeral.value? (numeral : Numeral) : Option Float :=
  let (leading, skipped) := absorb 0 numeral.whole
  let (significand, ignored) := absorb leading numeral.fraction
  let written := Text.decimalValue numeral.exponent
  let shift : Int := skipped.length - (numeral.fraction.length - ignored.length : Nat)
  let exponent := if numeral.exponentNegative then shift - written else shift + written
  (scale? significand exponent).map fun x => if numeral.negative then -x else x

/-- The number of a numeral without sign, point and exponent, if it fits 64 bits. -/
def Numeral.natural? (numeral : Numeral) : Option Nat :=
  let value := Text.decimalValue numeral.whole
  if !numeral.negative && numeral.fraction.isEmpty && numeral.exponent.isEmpty &&
      value < UInt64.size then
    some value
  else none

end CodeRubric.Decimal
