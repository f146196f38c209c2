/-! Text as 16-bit units. -/

namespace ClassAtlas.Utf16

def isHigh (u : UInt16) : Bool :=
  0xD800 ≤ u && u < 0xDC00

def isLow (u : UInt16) : Bool :=
  0xDC00 ≤ u && u < 0xE000

/-- The units of a code point; a surrogate is a unit of its own. -/
def ofPoint (p : Nat) : List UInt16 :=
  if p < 0x10000 then [UInt16.ofNat p]
  else
    [UInt16.ofNat (0xD800 + (p - 0x10000) / 0x400), UInt16.ofNat (0xDC00 + (p - 0x10000) % 0x400)]

/-- The character of a surrogate pair. -/
def pair (high low : UInt16) : Char :=
  Char.ofNat (0x10000 + (high.toNat - 0xD800) * 0x400 + (low.toNat - 0xDC00))

/-- The character of a unit outside any pair. -/
def single (u : UInt16) : Char :=
  if isHigh u || isLow u then Char.ofNat 0xFFFD else Char.ofNat u.toNat

/-- Adjacent pairs are combined; every other surrogate is replaced. -/
def decode : List UInt16 → List Char
  | [] => []
  | [u] => [single u]
  | u :: v :: us =>
    if isHigh u && isLow v then pair u v :: decode us else single u :: decode (v :: us)

end ClassAtlas.Utf16
