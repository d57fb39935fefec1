import SchemaTypes.Json.Decimal

namespace SchemaTypes

inductive Number where
  | integer (value : Int)
  | double (value : Double)
  deriving DecidableEq, Repr

namespace Number

def canonical : Number → Number
  | integer value => integer value
  | double value => double value.unsignedZero

def nat? : Number → Option Nat
  | integer value => if 0 ≤ value then some value.natAbs else none
  | double _ => none

def chars : Number → List Char
  | integer value =>
    if value < 0 then '-' :: Nat.toDigits 10 value.natAbs else Nat.toDigits 10 value.natAbs
  | double value => value.chars

theorem canonical_canonical (number : Number) : number.canonical.canonical = number.canonical := by
  cases number <;> simp [canonical, Double.unsignedZero_unsignedZero]

end Number

end SchemaTypes
