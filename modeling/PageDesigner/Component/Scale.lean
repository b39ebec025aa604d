import PageDesigner.Decimal.Positional

/-!
Utility classes for single values. A value with a step on its scale gives that step's name, and any
other value is written out in brackets.
-/

namespace PageDesigner

/-- The value as a whole number of pixels, if it is one from 0 to `2 ^ 32 - 1`. -/
def wholePixels? (value : Float) : Option Nat :=
  if value.toUInt32.toFloat == value then some value.toUInt32.toNat else none

def arbitraryClass (scale value : String) : String := scale ++ "-[" ++ value ++ "]"

def pixelClass (scale : String) (value : Float) : String :=
  arbitraryClass scale (Decimal.text value ++ "px")

def scaleStep? (steps : List (Nat × String)) (value : Float) : Option String :=
  (wholePixels? value).bind fun pixels => steps.lookup pixels

def fontSteps : List (Nat × String) :=
  [(12, "xs"), (14, "sm"), (16, "base"), (18, "lg"), (20, "xl"), (24, "2xl"), (30, "3xl"),
    (36, "4xl"), (48, "5xl")]

def fontSizeClass (size : Float) : String :=
  match scaleStep? fontSteps size with
  | some step => "text-" ++ step
  | none => pixelClass "text" size

def spacingSteps : List (Nat × String) :=
  [(0, "0"), (4, "1"), (8, "2"), (12, "3"), (16, "4"), (20, "5"), (24, "6"), (32, "8"), (40, "10"),
    (48, "12")]

def spacingClass (scale : String) (value : Float) : String :=
  match scaleStep? spacingSteps value with
  | some step => scale ++ "-" ++ step
  | none => pixelClass scale value

def radiusSteps : List (Nat × String) :=
  [(0, "rounded-none"), (4, "rounded"), (8, "rounded-lg"), (12, "rounded-xl"), (16, "rounded-2xl"),
    (9999, "rounded-full")]

def borderRadiusClass (radius : Float) : String :=
  (scaleStep? radiusSteps radius).getD (pixelClass "rounded" radius)

def lowerAscii (text : String) : String := String.ofList (text.toList.map Char.toLower)

def palette : List (String × String) :=
  [("#ffffff", "white"), ("#000000", "black"), ("#f8fafc", "slate-50"), ("#e2e8f0", "slate-200"),
    ("#64748b", "slate-500"), ("#0f172a", "slate-900"), ("#3b82f6", "blue-500"),
    ("#ef4444", "red-500"), ("#22c55e", "green-500")]

/-- The name of a common colour, whatever the case of its hexadecimal letters. -/
def paletteName? (color : String) : Option String := palette.lookup (lowerAscii color)

def colorClass (scale color : String) : String :=
  match paletteName? color with
  | some name => scale ++ "-" ++ name
  | none => arbitraryClass scale color

end PageDesigner
