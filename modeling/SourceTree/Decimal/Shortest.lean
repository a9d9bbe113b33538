/-! # Shortest decimals

The decimal with the fewest digits that reads back as a given binary floating-point number, and
of those the one nearest to the number. A positive number is given as `significand * 2 ^ exponent`;
the reals that round to it form an interval around it, with its ends when the significand is even.

All arithmetic is on exact integers: numbers are compared after scaling by a common power of two
and a common power of ten. -/

namespace SourceTree.Decimal

structure Scaled where
  digits : Nat
  exponent : Int
  deriving DecidableEq, Repr

/-- A positive binary number `significand * 2 ^ exponent`. `atPowerOfTwo` says that the neighbour
below is only half as far away as the neighbour above. -/
structure Binary where
  significand : Nat
  exponent : Int
  atPowerOfTwo : Bool
  deriving DecidableEq, Repr

namespace Binary

def fraction (number : Binary) : Nat × Nat :=
  if 0 ≤ number.exponent then
    (4 * number.significand * Nat.pow 2 number.exponent.toNat, 1)
  else
    (4 * number.significand, Nat.pow 2 (-number.exponent).toNat)

def quarterStep (number : Binary) : Nat :=
  if 0 ≤ number.exponent then Nat.pow 2 number.exponent.toNat else 1

def admitsDecimal (number : Binary) (candidate : Nat) (scale : Int) : Bool :=
  let (numerator, denominator) := number.fraction
  let above := 2 * number.quarterStep
  let below := if number.atPowerOfTwo then number.quarterStep else 2 * number.quarterStep
  let (scaled, unit) :=
    if 0 ≤ scale then
      (4 * candidate * Nat.pow 10 scale.toNat * denominator, 1)
    else
      (4 * candidate * denominator, Nat.pow 10 (-scale).toNat)
  let low := (numerator - below) * unit
  let high := (numerator + above) * unit
  if number.significand % 2 = 0 then
    low ≤ scaled && scaled ≤ high
  else
    low < scaled && scaled < high

def distance (number : Binary) (candidate : Nat) (scale : Int) : Nat :=
  let (numerator, denominator) := number.fraction
  let (scaled, unit) :=
    if 0 ≤ scale then
      (4 * candidate * Nat.pow 10 scale.toNat * denominator, 1)
    else
      (4 * candidate * denominator, Nat.pow 10 (-scale).toNat)
  let exact := numerator * unit
  (scaled - exact) + (exact - scaled)

def floorAt (number : Binary) (scale : Int) : Nat :=
  let (numerator, denominator) := number.fraction
  if 0 ≤ scale then
    numerator / (4 * denominator * Nat.pow 10 scale.toNat)
  else
    numerator * Nat.pow 10 (-scale).toNat / (4 * denominator)

def decimalExponent (number : Binary) : Int :=
  let (numerator, denominator) := number.fraction
  let estimate : Int :=
    (((numerator / 4).log2 : Int) - (denominator.log2 : Int)) * 30103 / 100000
  let start := estimate - 2
  let rec climb : Nat → Int → Int
    | 0, exponent => exponent
    | fuel + 1, exponent =>
        if number.floorAt (exponent + 1) = 0 then exponent else climb fuel (exponent + 1)
  climb 6 start

/-- Of the two multiples of `10 ^ scale` around the number, the one that rounds to it and is
nearer; an exact tie goes to the even multiple. -/
def onGrid? (number : Binary) (scale : Int) : Option Scaled :=
  let lower := number.floorAt scale
  let upper := lower + 1
  match number.admitsDecimal lower scale, number.admitsDecimal upper scale with
  | true, true =>
      let below := number.distance lower scale
      let above := number.distance upper scale
      if below < above ∨ (below = above ∧ lower % 2 = 0) then
        some ⟨lower, scale⟩
      else
        some ⟨upper, scale⟩
  | true, false => some ⟨lower, scale⟩
  | false, true => some ⟨upper, scale⟩
  | false, false => none

/-- Try grids of growing fineness, from one digit to seventeen, which always suffice. -/
def shortest (number : Binary) : Scaled :=
  let top := number.decimalExponent
  let rec search : Nat → Int → Scaled
    | 0, scale => ⟨number.floorAt scale, scale⟩
    | fuel + 1, scale =>
        match number.onGrid? scale with
        | some decimal => decimal
        | none => search fuel (scale - 1)
  search 17 top

end Binary

def Scaled.normalize (decimal : Scaled) : Scaled :=
  let rec drop : Nat → Scaled → Scaled
    | 0, current => current
    | fuel + 1, current =>
        if current.digits % 10 = 0 ∧ current.digits ≠ 0 then
          drop fuel ⟨current.digits / 10, current.exponent + 1⟩
        else
          current
  drop 20 decimal

example : (Binary.mk 1 (-1) true).shortest = ⟨5, -1⟩ := by decide +kernel
example : (Binary.mk 7205759403792794 (-56) false).shortest = ⟨1, -1⟩ := by decide +kernel
example : (Binary.mk 1 (-1074) false).shortest = ⟨5, -324⟩ := by decide +kernel

end SourceTree.Decimal
