/-!
Finite doubles without machine floats. A double is its sign and its rank, the number of smaller
magnitudes, so equal ranks are equal magnitudes and no second spelling of a magnitude exists.
Every magnitude is a whole number of units of `2 ^ -1074`, which keeps all arithmetic in `Nat`.
-/

namespace SchemaTypes

def powerOfTwo (exponent : Nat) : Nat := Nat.pow 2 exponent

def rankLimit : Nat := 2047 * powerOfTwo 52

structure Double where
  negative : Bool
  rank : Nat
  finite : rank < rankLimit
  deriving DecidableEq, Repr

/-- The magnitude of a rank in units of `2 ^ -1074`; ranks above the limit continue the scale. -/
def unitsOfRank (rank : Nat) : Nat :=
  if rank < powerOfTwo 52 then rank
  else (powerOfTwo 52 + rank % powerOfTwo 52) * powerOfTwo (rank / powerOfTwo 52 - 1)

def divideToEven (numerator denominator : Nat) : Nat :=
  let quotient := numerator / denominator
  let twice := 2 * (numerator % denominator)
  if twice < denominator then quotient
  else if denominator < twice then quotient + 1
  else quotient + quotient % 2

/-- The rank nearest to a fraction; at or above `rankLimit` when the fraction is too large. -/
def rankOfRatio (numerator denominator : Nat) : Nat :=
  let scaled := numerator * powerOfTwo 1074
  let shift := Nat.log2 (scaled / denominator) - 52
  shift * powerOfTwo 52 + divideToEven scaled (denominator * powerOfTwo shift)

namespace Double

def ofRank? (negative : Bool) (rank : Nat) : Option Double :=
  if finite : rank < rankLimit then some ⟨negative, rank, finite⟩ else none

def zero (negative : Bool) : Double :=
  ⟨negative, 0, by decide⟩

def units (value : Double) : Nat :=
  unitsOfRank value.rank

def unsignedZero (value : Double) : Double :=
  if value.rank = 0 then zero false else value

theorem unsignedZero_unsignedZero (value : Double) :
    value.unsignedZero.unsignedZero = value.unsignedZero := by
  by_cases zero : value.rank = 0 <;> simp [unsignedZero, zero, Double.zero]

end Double

end SchemaTypes
