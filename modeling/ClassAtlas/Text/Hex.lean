/-! Hexadecimal numerals of a fixed least width. -/

namespace ClassAtlas.Hex

/-- The digit of a value below sixteen; `ten` is the digit that stands for ten. -/
def digit (ten : Char) (n : Nat) : Char :=
  if n < 10 then Char.ofNat (48 + n) else Char.ofNat (ten.toNat + (n - 10))

/-- The lowest `width` digits of `n`, most significant first. -/
def digits (ten : Char) : (width : Nat) → (n : Nat) → List Char
  | 0, _ => []
  | width + 1, n => digits ten width (n / 16) ++ [digit ten (n % 16)]

/-- Lower-case numeral of exactly `width` digits. -/
def lower (width n : Nat) : String :=
  String.ofList (digits 'a' width n)

/-- Upper-case numeral of exactly `width` digits. -/
def upper (width n : Nat) : String :=
  String.ofList (digits 'A' width n)

/-- Bytes as pairs of lower-case digits. -/
def ofBytes (bytes : List UInt8) : String :=
  String.ofList (bytes.flatMap fun b => digits 'a' 2 b.toNat)

def value? (c : Char) : Option Nat :=
  if '0' ≤ c ∧ c ≤ '9' then some (c.toNat - 48)
  else if 'a' ≤ c ∧ c ≤ 'f' then some (c.toNat - 87)
  else if 'A' ≤ c ∧ c ≤ 'F' then some (c.toNat - 55)
  else none

/-- Reads pairs of digits; `none` for a lone or foreign character. -/
def toBytes? (text : String) : Option (List UInt8) :=
  go text.toList []
where
  go : List Char → List UInt8 → Option (List UInt8)
    | [], acc => some acc.reverse
    | a :: b :: rest, acc =>
      match value? a, value? b with
      | some hi, some lo => go rest (UInt8.ofNat (16 * hi + lo) :: acc)
      | _, _ => none
    | [_], _ => none

end ClassAtlas.Hex
