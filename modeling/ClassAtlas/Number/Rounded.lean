import ClassAtlas.Number.Double

/-! Numbers as decimals of a given length: with so many places behind the point, with so many digits
and a power of ten, or with the shorter of the two. The decimal is the nearest one there is; a tie
goes to the even neighbour. -/

namespace ClassAtlas.Double

/-- The multiple of `10 ^ place` that is nearest to `mantissa * 2 ^ exponent`. -/
def nearestOnGrid (mantissa : Nat) (exponent place : Int) : Nat :=
  let low := gridFloor mantissa exponent place
  if upperNearer mantissa exponent place low then low + 1 else low

/-- Digits in front of the point and behind it, and the power of ten if one is written. -/
structure Decimal where
  front : List Char
  behind : List Char
  power : Option Int

def fixed (mantissa : Nat) (exponent : Int) (places : Nat) : Decimal :=
  let text := Nat.toDigits 10 (nearestOnGrid mantissa exponent (-places))
  let digits := List.replicate (places + 1 - text.length) '0' ++ text
  let point := digits.length - places
  ⟨digits.take point, digits.drop point, none⟩

/-- The first digit and `places` more, and the power of ten that belongs to the first. A number that
is rounded up to the next power has a digit too many. -/
def leading (mantissa : Nat) (exponent : Int) (places : Nat) : List Char × Int :=
  if mantissa = 0 then (List.replicate (places + 1) '0', 0)
  else
    let power := pointOf mantissa exponent - 1
    let digits := Nat.toDigits 10 (nearestOnGrid mantissa exponent (power - places))
    if digits.length ≤ places + 1 then (digits, power) else (digits.dropLast, power + 1)

def scientific (mantissa : Nat) (exponent : Int) (places : Nat) : Decimal :=
  let (digits, power) := leading mantissa exponent places
  ⟨digits.take 1, digits.drop 1, some power⟩

/-- All digits stand around the point as long as it is near them. -/
def general (mantissa : Nat) (exponent : Int) (size : Nat) : Decimal :=
  let (digits, power) := leading mantissa exponent (size - 1)
  if power < -4 || size ≤ power then ⟨digits.take 1, digits.drop 1, some power⟩
  else if power < 0 then ⟨['0'], List.replicate (-power - 1).toNat '0' ++ digits, none⟩
  else ⟨digits.take (power.toNat + 1), digits.drop (power.toNat + 1), none⟩

namespace Decimal

/-- Without the zeros at the end. -/
def trim (d : Decimal) : Decimal :=
  { d with behind := (d.behind.reverse.dropWhile (· = '0')).reverse }

/-- The point is left out if nothing stands behind it, unless it is asked for. -/
def toList (pointed : Bool) (d : Decimal) : List Char :=
  let tail := if d.behind.isEmpty && !pointed then [] else '.' :: d.behind
  d.front ++ tail ++ d.power.elim [] powerText

end Decimal

end ClassAtlas.Double
