import SchemaTypes.Json.Double

/-!
Decimal text of doubles, in both directions. Reading gathers digits into one significand of at most
64 bits and scales it by a power of ten, one rounding per step. Writing takes the fewest digits that
still round to the double, and of those the nearest.
-/

namespace SchemaTypes

def powerOfTen (exponent : Nat) : Nat := Nat.pow 10 exponent

def maxTenPower : Nat := 308

def tenPowerRank (power : Nat) : Nat :=
  rankOfRatio (powerOfTen power) 1

/-- Divides a magnitude by `10 ^ power`, at most `maxTenPower` places at a time. -/
def divideByTenPower (rank power : Nat) : Nat :=
  if power ≤ maxTenPower then
    rankOfRatio (unitsOfRank rank) (unitsOfRank (tenPowerRank power))
  else if rank = 0 then 0
  else
    divideByTenPower
      (rankOfRatio (unitsOfRank rank) (unitsOfRank (tenPowerRank maxTenPower)))
      (power - maxTenPower)
termination_by power
decreasing_by simp [maxTenPower] at *; omega

/-- The rank of `significand * 10 ^ power`, or of `significand / 10 ^ power` when `power` is negative. -/
def rankOfDecimal (significand : Nat) (power : Int) : Nat :=
  let start := rankOfRatio significand 1
  if power < 0 then divideByTenPower start power.natAbs
  else if start = 0 then 0
  else if power.natAbs ≤ maxTenPower then
    rankOfRatio (unitsOfRank start * unitsOfRank (tenPowerRank power.natAbs)) (powerOfTwo 2148)
  else rankLimit

def Double.ofDecimal? (negative : Bool) (significand : Nat) (power : Int) : Option Double :=
  Double.ofRank? negative (rankOfDecimal significand power)

structure DecimalDigits where
  digits : Nat
  power : Int
  deriving DecidableEq, Repr

def digitCount (n : Nat) : Nat :=
  (Nat.toDigits 10 n).length

def dropTrailingZeros (digits : List Char) : List Char :=
  (digits.reverse.dropWhile (· = '0')).reverse

/--
The scale on which a magnitude and its two rounding limits are whole numbers: half units times
`10 ^ decimalScale`. The smallest double has its first digit 324 places after the point.
-/
def decimalScale : Nat := 400

/-- The grid point nearest to the middle, among its two neighbours on the grid that lie between the limits. -/
def nearestOnGrid (low middle high step : Nat) (closed : Bool) : Option Nat :=
  let inside point :=
    if closed then low ≤ point * step ∧ point * step ≤ high
    else low < point * step ∧ point * step < high
  let below := middle / step
  let above := below + 1
  match decide (inside below), decide (inside above) with
  | false, false => none
  | true, false => some below
  | false, true => some above
  | true, true =>
    let fromBelow := middle - below * step
    let fromAbove := above * step - middle
    if fromBelow < fromAbove then some below
    else if fromAbove < fromBelow then some above
    else some (below + below % 2)

/-- The fewest digits that round to the magnitude of a nonzero rank. Seventeen always suffice. -/
def shortestDigits (rank : Nat) : DecimalDigits :=
  let units := unitsOfRank rank
  let scaled halfUnits := halfUnits * powerOfTen decimalScale
  let low := scaled (unitsOfRank (rank - 1) + units)
  let middle := scaled (2 * units)
  let high := scaled (units + unitsOfRank (rank + 1))
  let places := digitCount (middle / powerOfTwo 1075)
  let grid count := nearestOnGrid low middle high (powerOfTen (places - count) * powerOfTwo 1075) (rank % 2 = 0)
  let found := (List.range 17).findSome? fun extra =>
    (grid (extra + 1)).map fun digits =>
      DecimalDigits.mk digits (((places - (extra + 1) : Nat) : Int) - decimalScale)
  found.getD ⟨0, 0⟩

/-- Positional between `1e-5` and `1e16`, and with a signed exponent outside. -/
def renderDigits (digits : List Char) (exponent : Int) : List Char :=
  if -5 ≤ exponent ∧ exponent < 0 then
    '0' :: '.' :: (List.replicate (exponent.natAbs - 1) '0' ++ digits)
  else if 0 ≤ exponent ∧ exponent < 16 then
    let whole := exponent.natAbs + 1
    let padded := digits ++ List.replicate (whole - digits.length) '0'
    let fraction := padded.drop whole
    padded.take whole ++ '.' :: (if fraction.isEmpty then ['0'] else fraction)
  else
    let sign := if exponent < 0 then '-' else '+'
    let fraction := digits.drop 1
    digits.take 1 ++ (if fraction.isEmpty then [] else '.' :: fraction) ++
      'e' :: sign :: Nat.toDigits 10 exponent.natAbs

def Double.chars (value : Double) : List Char :=
  let sign := if value.negative then ['-'] else []
  if value.rank = 0 then sign ++ ['0', '.', '0']
  else
    let shortest := shortestDigits value.rank
    let digits := Nat.toDigits 10 shortest.digits
    sign ++ renderDigits (dropTrailingZeros digits) (shortest.power + (digits.length - 1 : Nat))

end SchemaTypes
