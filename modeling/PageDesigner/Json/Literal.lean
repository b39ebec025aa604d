import PageDesigner.Json.Basic

/-!
Number literals of JSON: an optional minus sign, a whole part without leading zeros, an optional
fraction and an optional exponent.
-/

namespace PageDesigner.Number

structure Literal where
  negative : Bool
  whole : List Char
  fraction : List Char
  exponent : Option Int

namespace Literal

def splitSign : List Char → Bool × List Char
  | '-' :: rest => (true, rest)
  | chars => (false, chars)

def splitDigits (chars : List Char) : List Char × List Char :=
  (chars.takeWhile Char.isDigit, chars.dropWhile Char.isDigit)

def natOfDigits (digits : List Char) : Nat :=
  digits.foldl (fun total digit => 10 * total + (digit.toNat - '0'.toNat)) 0

def canonical : List Char → Bool
  | [] => false
  | ['0'] => true
  | first :: _ => first != '0'

def splitFraction : List Char → Option (List Char × List Char)
  | '.' :: rest =>
    match splitDigits rest with
    | ([], _) => none
    | split => some split
  | chars => some ([], chars)

def exponentDigits (negative : Bool) (chars : List Char) : Option Int :=
  match splitDigits chars with
  | ([], _) => none
  | (digits, []) => some (if negative then -(natOfDigits digits : Int) else natOfDigits digits)
  | _ => none

def exponentPart : List Char → Option (Option Int)
  | [] => some none
  | mark :: '-' :: rest => if mark = 'e' ∨ mark = 'E' then (exponentDigits true rest).map some else none
  | mark :: '+' :: rest => if mark = 'e' ∨ mark = 'E' then (exponentDigits false rest).map some else none
  | mark :: rest => if mark = 'e' ∨ mark = 'E' then (exponentDigits false rest).map some else none

def ofChars? (chars : List Char) : Option Literal := do
  let (negative, unsigned) := splitSign chars
  let (whole, afterWhole) := splitDigits unsigned
  if canonical whole then
    let (fraction, afterFraction) ← splitFraction afterWhole
    let exponent ← exponentPart afterFraction
    some ⟨negative, whole, fraction, exponent⟩
  else none

/-- The double nearest to `significand * 10 ^ exponent`. Beyond these magnitudes every such number
overflows or rounds to zero, and the power of ten is not formed. -/
def magnitude (significand : Nat) (exponent : Int) : Float :=
  let places := (Nat.toDigits 10 significand).length + exponent
  if significand = 0 ∨ places < -400 then 0
  else if 400 < places then Float.ofScientific 1 false 400
  else Float.ofScientific significand (exponent < 0) exponent.natAbs

def toFloat (literal : Literal) : Float :=
  let size := magnitude (natOfDigits (literal.whole ++ literal.fraction))
    (literal.exponent.getD 0 - literal.fraction.length)
  if literal.negative then -size else size

/-- The literal's own whole number, where it is written as one. -/
def natural? (literal : Literal) : Option UInt64 :=
  let value := natOfDigits literal.whole
  if !literal.negative && literal.fraction.isEmpty && literal.exponent.isNone && value < UInt64.size
  then some (UInt64.ofNat value) else none

/-- A literal beyond the largest double has no number. -/
def number? (literal : Literal) : Option Number :=
  match literal.natural? with
  | some value => some (.natural value)
  | none => if literal.toFloat.isFinite then some (.real literal.toFloat) else none

end Literal
end PageDesigner.Number
