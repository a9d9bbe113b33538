import SourceTree.Decimal.Shortest

/-! # Written numbers

A floating-point number is written as its shortest decimal, positional while the decimal exponent
lies between -4 and 15, with an exponent of at least two digits otherwise, and always with a point
or an exponent, so that it is never mistaken for an integer. Reading an integer takes time that
grows faster than its length, so one with too many digits is refused. -/

namespace SourceTree.Decimal

/-! ## Integers -/

def maxDigits : Nat := 4300

def overlongMessage (digits : Nat) : String :=
  s!"Exceeds the limit ({maxDigits} digits) for integer string conversion: value has {digits} " ++
    "digits; use sys.set_int_max_str_digits() to increase the limit"

/-! ## Floating-point numbers -/

structure Style where
  lowestPositional : Int
  highestPositional : Int
  exponentDigits : Nat
  infinity : String
  notANumber : String

/-- Positional from `0.0001` up to, but without, `10 ^ 16`; exponents of two digits or more. -/
def standardStyle : Style where
  lowestPositional := -4
  highestPositional := 15
  exponentDigits := 2
  infinity := "inf"
  notANumber := "nan"

def padLeft (width : Nat) (text : String) : String :=
  String.ofList (List.replicate (width - text.length) '0') ++ text

def Scaled.write (style : Style) (decimal : Scaled) : String :=
  let digits := toString decimal.digits
  let leading : Int := decimal.exponent + digits.length - 1
  if style.lowestPositional ≤ leading ∧ leading ≤ style.highestPositional then
    if 0 ≤ decimal.exponent then
      digits ++ String.ofList (List.replicate decimal.exponent.toNat '0') ++ ".0"
    else if 0 ≤ leading then
      let whole := (leading + 1).toNat
      String.ofList (digits.toList.take whole) ++ "." ++ String.ofList (digits.toList.drop whole)
    else
      "0." ++ String.ofList (List.replicate (-leading - 1).toNat '0') ++ digits
  else
    let fraction := String.ofList (digits.toList.drop 1)
    let mantissa := String.ofList (digits.toList.take 1) ++
      if fraction.isEmpty then "" else "." ++ fraction
    let sign := if leading < 0 then "-" else "+"
    mantissa ++ "e" ++ sign ++ padLeft style.exponentDigits (toString leading.natAbs)

def binaryOfBits (bits : Nat) : Binary :=
  let fraction := bits % Nat.pow 2 52
  let biased := bits / Nat.pow 2 52 % Nat.pow 2 11
  if biased = 0 then
    ⟨fraction, -1074, false⟩
  else
    ⟨Nat.pow 2 52 + fraction, Int.ofNat biased - 1075, fraction = 0 ∧ 1 < biased⟩

def writeBits (style : Style) (bits : Nat) : String :=
  let negative := bits / Nat.pow 2 63 = 1
  let magnitude := bits % Nat.pow 2 63
  let sign := if negative then "-" else ""
  if magnitude = 0 then
    sign ++ "0.0"
  else if magnitude / Nat.pow 2 52 = Nat.pow 2 11 - 1 then
    if magnitude % Nat.pow 2 52 = 0 then sign ++ style.infinity else style.notANumber
  else
    sign ++ ((binaryOfBits magnitude).shortest.normalize.write style)

def writeFloat (number : Float) : String :=
  writeBits standardStyle number.toBits.toNat

example : (Scaled.mk 5 0).write standardStyle = "5.0" := by decide +kernel
example : (Scaled.mk 1 16).write standardStyle = "1e+16" := by decide +kernel
example : (Scaled.mk 1 (-5)).write standardStyle = "1e-05" := by decide +kernel
example : (Scaled.mk 525 (-2)).write standardStyle = "5.25" := by decide +kernel
example : (Scaled.mk 1 (-4)).write standardStyle = "0.0001" := by decide +kernel

end SourceTree.Decimal
