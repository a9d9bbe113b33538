import SourceTree.Decimal.Written

/-! # Time scales

Readings of a clock and lengths of time share one scale. The library asks only for the arithmetic
it performs on them, so the same definitions run on floating-point seconds and can be reasoned
about on exact numbers. -/

namespace SourceTree

inductive Uncountable where
  | infinite
  | undefined
  deriving DecidableEq, Repr

class Timescale (T : Type) extends Zero T, Add T, Sub T, LT T, LE T where
  decideLt : DecidableLT T
  decideLe : DecidableLE T
  /-- A length doubled the given number of times; `none` when the scale has no such factor. -/
  doubled : T → Nat → Option T
  /-- Why a length cannot be counted in milliseconds; `none` for a length that can. -/
  uncountable : T → Option Uncountable
  /-- The length in seconds, as messages show it. -/
  text : T → String

namespace Timescale

variable {T : Type} [Timescale T]

instance : DecidableLT T := Timescale.decideLt

instance : DecidableLE T := Timescale.decideLe

def isNothing (length : T) : Bool :=
  length ≤ 0 && 0 ≤ length

def remaining (now moment : T) : T :=
  if moment - now < 0 then 0 else moment - now

def limitOr (limit : Option T) (otherwise : T) : T :=
  match limit with
  | some length => if isNothing length then otherwise else length
  | none => otherwise

end Timescale

/-- Exact seconds, without rounding. -/
instance : Timescale Rat where
  zero := (0 : Rat)
  decideLt := inferInstance
  decideLe := inferInstance
  doubled := fun length times => some (length * 2 ^ times)
  uncountable := fun _ => none
  text := fun length => if length.den = 1 then s!"{length.num}" else s!"{length.num}/{length.den}"

/-- Floating-point seconds, on which the library runs. -/
instance : Timescale Float where
  decideLt := inferInstance
  decideLe := inferInstance
  doubled := fun length times => if times < 1024 then some (length.scaleB times) else none
  uncountable := fun length =>
    let milliseconds := length * 1000.0
    if milliseconds.isNaN then some .undefined
    else if milliseconds.isInf then some .infinite
    else none
  text := Decimal.writeFloat

end SourceTree
