/-! Double-precision numbers as a mantissa and a power of two, read from decimals with rounding to
nearest, ties to even. -/

namespace ClassAtlas

/-- The number `mantissa * 2 ^ exponent` with a sign, an infinity, or no number. -/
inductive Double where
  | finite (negative : Bool) (mantissa : Nat) (exponent : Int)
  | infinite (negative : Bool)
  | nan
  deriving DecidableEq, Repr

namespace Double

/-- Nearest integer to a quotient; a tie goes to the even one. -/
def roundQuotient (num den : Nat) : Nat :=
  let q := num / den
  let r := num % den
  if den < 2 * r || (2 * r == den && q % 2 == 1) then q + 1 else q

/-- The quotient of two numbers divided by a power of two, as a fraction. -/
def scaled (num den : Nat) (exponent : Int) : Nat × Nat :=
  if 0 ≤ exponent then (num, den <<< exponent.toNat) else (num <<< (-exponent).toNat, den)

/-- The exponent that gives a mantissa of 53 bits, or the least one there is. -/
def exponentOf (num den : Nat) : Int :=
  let guess : Int := (num.log2 : Int) - den.log2 - 52
  let (n, d) := scaled num den guess
  max (if n / d < 1 <<< 52 then guess - 1 else guess) (-1074)

/-- The double nearest to a positive fraction. -/
def ofFraction (negative : Bool) (num den : Nat) : Double :=
  let e := exponentOf num den
  let (n, d) := scaled num den e
  let m := roundQuotient n d
  let (m, e) := if m = 1 <<< 53 then (1 <<< 52, e + 1) else (m, e)
  if 971 < e then infinite negative
  else if m = 0 then finite negative 0 0
  else finite negative m e

/-- Number of decimal digits. -/
def digitCount (n : Nat) : Nat :=
  (Nat.toDigits 10 n).length

/-- The double nearest to `digits * 10 ^ exponent`. -/
def ofDecimal (negative : Bool) (digits : Nat) (exponent : Int) : Double :=
  let size := digitCount digits + exponent
  if digits = 0 || size < -330 then finite negative 0 0
  else if 310 < size then infinite negative
  else if 0 ≤ exponent then ofFraction negative (digits * Nat.pow 10 exponent.toNat) 1
  else ofFraction negative digits (Nat.pow 10 (-exponent).toNat)

/-- Floor of `mantissa * 2 ^ exponent / 10 ^ place`. -/
def gridFloor (mantissa : Nat) (exponent place : Int) : Nat :=
  let num := mantissa <<< exponent.toNat * Nat.pow 10 (-place).toNat
  num / (1 <<< (-exponent).toNat * Nat.pow 10 place.toNat)

/-- Whether the upper of two neighbours on a decimal grid is the nearer one; at equal distance the
even one counts as nearer. -/
def upperNearer (mantissa : Nat) (exponent place : Int) (low : Nat) : Bool :=
  let num := mantissa <<< exponent.toNat * Nat.pow 10 (-place).toNat
  let den := 1 <<< (-exponent).toNat * Nat.pow 10 place.toNat
  let twice := 2 * (num - low * den)
  den < twice || (twice == den && low % 2 == 1)

/-- Decimal digits and exponent of the shortest decimal that reads back as the number, tried with
`size` digits and more; `size + fuel` digits are enough. -/
def shortestFrom (mantissa : Nat) (exponent : Int) (points : Int) : (fuel size : Nat) → Nat × Int
  | 0, size => (gridFloor mantissa exponent (points - size), points - size)
  | fuel + 1, size =>
    let place := points - size
    let low := gridFloor mantissa exponent place
    let readsBack (digits : Nat) : Bool :=
      ofDecimal false digits place == ofFraction false (mantissa <<< exponent.toNat)
        (1 <<< (-exponent).toNat)
    let (first, second) :=
      if upperNearer mantissa exponent place low then (low + 1, low) else (low, low + 1)
    if readsBack first then (first, place)
    else if readsBack second then (second, place)
    else shortestFrom mantissa exponent points fuel (size + 1)

/-- Position of the decimal point: the number lies between `10 ^ (p - 1)` and `10 ^ p`. -/
def pointOf (mantissa : Nat) (exponent : Int) : Int :=
  let whole := mantissa <<< exponent.toNat / 1 <<< (-exponent).toNat
  if whole ≠ 0 then digitCount whole
  else
    let places : Nat := 400
    let scaledUp := mantissa * Nat.pow 10 places / 1 <<< (-exponent).toNat
    (digitCount scaledUp : Int) - places

/-- Digits without trailing zeros, and the exponent that belongs to them. -/
def trim : (fuel : Nat) → Nat → Int → Nat × Int
  | 0, digits, exponent => (digits, exponent)
  | fuel + 1, digits, exponent =>
    if digits ≠ 0 && digits % 10 = 0 then trim fuel (digits / 10) (exponent + 1)
    else (digits, exponent)

def shortest (mantissa : Nat) (exponent : Int) : Nat × Int :=
  let (digits, place) := shortestFrom mantissa exponent (pointOf mantissa exponent) 17 1
  trim 20 digits place

/-- A power of ten with its sign and two digits at least. -/
def powerText (power : Int) : List Char :=
  let digits := Nat.toDigits 10 power.natAbs
  'e' :: (if power < 0 then '-' else '+') :: (if digits.length < 2 then '0' :: digits else digits)

/-- From the fourth place behind the point up to the sixteenth in front of it a number is written
positionally, with one digit behind the point at least. -/
def layout (digits : List Char) (point : Int) : List Char :=
  if -4 < point && point ≤ 16 then
    if point ≤ 0 then '0' :: '.' :: (List.replicate (-point).toNat '0' ++ digits)
    else
      let front := point.toNat
      if digits.length ≤ front then
        digits ++ List.replicate (front - digits.length) '0' ++ ['.', '0']
      else digits.take front ++ '.' :: digits.drop front
  else
    let tail := match digits.drop 1 with
      | [] => []
      | rest => '.' :: rest
    digits.take 1 ++ tail ++ powerText (point - 1)

/-- The shortest text that reads back as the number. -/
def toText : Double → String
  | nan => "nan"
  | infinite negative => if negative then "-inf" else "inf"
  | finite negative mantissa exponent =>
    let body :=
      if mantissa = 0 then ['0', '.', '0']
      else
        let (digits, place) := shortest mantissa exponent
        let text := Nat.toDigits 10 digits
        layout text (place + text.length)
    String.ofList (if negative then '-' :: body else body)

end Double

end ClassAtlas
