/-! The shortest decimal text of a binary64 number: of the decimals that lie nearer to the number
than to any other one, those with the fewest digits, and of these the closest. -/
namespace CodeRubric.Decimal

/-- The reals that round to a positive number, as fractions over one denominator. -/
structure Cell where
  low : Nat
  value : Nat
  high : Nat
  denominator : Nat
  /-- Whether the two ends belong to the cell. -/
  closed : Bool
deriving DecidableEq, Repr

/-- The cell of `mantissa * 2 ^ exponent`. Below the least number of a binade the spacing halves. -/
def Cell.ofBinary (mantissa : Nat) (exponent : Int) (leastOfBinade : Bool) : Cell :=
  let low := 4 * mantissa - (if leastOfBinade then 1 else 2)
  let shift := exponent - 2
  let factor := Nat.pow 2 shift.toNat
  ⟨low * factor, 4 * mantissa * factor, (4 * mantissa + 2) * factor,
    Nat.pow 2 (-shift).toNat, mantissa % 2 = 0⟩

def Cell.above (cell : Cell) (x : Nat) : Bool :=
  if cell.closed then cell.low ≤ x else cell.low < x

def Cell.below (cell : Cell) (x : Nat) : Bool :=
  if cell.closed then x ≤ cell.high else x < cell.high

/-- The cell in units of `10 ^ k`. -/
def Cell.inUnits (cell : Cell) (k : Int) : Cell :=
  let up := Nat.pow 10 (-k).toNat
  ⟨cell.low * up, cell.value * up, cell.high * up, cell.denominator * Nat.pow 10 k.toNat,
    cell.closed⟩

/-- The whole number in the cell that is closest to its value; a tie goes to the even one. -/
def Cell.nearest? (cell : Cell) : Option Nat :=
  let floor := cell.value / cell.denominator
  let lower := floor * cell.denominator
  let upper := (floor + 1) * cell.denominator
  match cell.above lower, cell.below upper with
  | true, true =>
    let down := cell.value - lower
    let up := upper - cell.value
    some (if down < up || (down = up && floor % 2 = 0) then floor else floor + 1)
  | true, false => some floor
  | false, true => some (floor + 1)
  | false, false => none

/-- A decimal `digits * 10 ^ exponent`. -/
structure Digits where
  digits : Nat
  exponent : Int
deriving DecidableEq, Repr

/-- Of the powers of ten from `10 ^ 309` down to `10 ^ (-342)` the first with a multiple in the
cell. -/
def Cell.shortest (cell : Cell) : Digits :=
  let found := (List.range 652).findSome? fun (i : Nat) =>
    let k : Int := 309 - i
    (cell.inUnits k).nearest?.map fun digits => (⟨digits, k⟩ : Digits)
  found.getD ⟨0, 0⟩

/-- The number of fractions in a binade. -/
def fractions : Nat := 0x10000000000000

/-- The shortest digits of the magnitude of a finite number. -/
def Digits.ofFloat (x : Float) : Digits :=
  let bits := x.toBits.toNat
  let biased : Nat := bits / fractions % 0x800
  let fraction : Nat := bits % fractions
  if biased = 0 then
    if fraction = 0 then ⟨0, 0⟩ else (Cell.ofBinary fraction (-1074) false).shortest
  else (Cell.ofBinary (fractions + fraction) (biased - 1075) (fraction = 0 && biased ≠ 1)).shortest

/-- Positional up to sixteen places before the point and five zeros after it, with at least one
digit on each side of the point; otherwise one digit, the others after a point, and an exponent. -/
def Digits.render (decimal : Digits) : List Char :=
  let digits := Nat.toDigits 10 decimal.digits
  let point : Int := digits.length + decimal.exponent
  if 0 ≤ decimal.exponent && point ≤ 16 then
    digits ++ List.replicate decimal.exponent.toNat '0' ++ ['.', '0']
  else if 0 < point && point ≤ 16 then
    digits.take point.toNat ++ '.' :: digits.drop point.toNat
  else if -5 < point && point ≤ 0 then
    '0' :: '.' :: List.replicate (-point).toNat '0' ++ digits
  else
    let fraction := digits.drop 1
    digits.take 1 ++ (if fraction.isEmpty then [] else '.' :: fraction) ++
      'e' :: (toString (point - 1)).toList

/-- The text of a number; one that is not finite has none and is written `null`. -/
def render (x : Float) : List Char :=
  if x.isFinite then
    (if x.toBits.toNat / fractions / 0x800 = 1 then ['-'] else []) ++ (Digits.ofFloat x).render
  else ['n', 'u', 'l', 'l']

end CodeRubric.Decimal
