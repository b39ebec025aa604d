import PageDesigner.Decimal.Shortest

/-!
The text of a double: its shortest digits in positional notation, without an exponent and without a
fraction part for whole values.
-/

namespace PageDesigner.Decimal

def zeros (count : Nat) : List Char := List.replicate count '0'

def dropTrailingZeros (digits : List Char) : List Char :=
  (digits.reverse.dropWhile (· = '0')).reverse

/-- Digits whose last one stands at the power `exponent` of ten. -/
def place (digits : List Char) (exponent : Int) : List Char :=
  if 0 ≤ exponent then digits ++ zeros exponent.toNat
  else
    let fraction := (-exponent).toNat
    if fraction < digits.length then
      digits.take (digits.length - fraction) ++ '.' :: digits.drop (digits.length - fraction)
    else '0' :: '.' :: zeros (fraction - digits.length) ++ digits

def Scaled.positional (s : Scaled) : List Char :=
  let digits := Nat.toDigits 10 s.digits
  let kept := dropTrailingZeros digits
  place kept (s.exponent + (digits.length - kept.length : Nat))

def magnitudeText (bits : Nat) : List Char :=
  if bits = 0 then ['0'] else (shortest (Binary.ofBits bits)).positional

def characters (x : Float) : List Char :=
  let bits := x.toBits.toNat
  let size := bits % Nat.pow 2 63
  let sign := if Nat.pow 2 63 ≤ bits then ['-'] else []
  if x.isNaN then ['N', 'a', 'N']
  else if x.isInf then sign ++ ['i', 'n', 'f']
  else sign ++ magnitudeText size

def text (x : Float) : String := String.ofList (characters x)

end PageDesigner.Decimal
