import ClassAtlas.Text.Hex

/-! Values of numerals in bases up to sixteen. -/

namespace ClassAtlas.Numeral

/-- The value of digits, most significant first. What is no digit counts as zero. -/
def value (base : Nat) (digits : List Char) : Nat :=
  digits.foldl (fun n c => base * n + (Hex.value? c).getD 0) 0

def decimal (digits : List Char) : Nat :=
  value 10 digits

/-- A decimal numeral behind a sign. -/
def signed (negative : Bool) (digits : List Char) : Int :=
  if negative then -(decimal digits : Int) else decimal digits

/-- The value of hexadecimal digits and nothing else. -/
def hex? (digits : List Char) : Option Nat :=
  if digits.all fun c => (Hex.value? c).isSome then some (value 16 digits) else none

end ClassAtlas.Numeral
