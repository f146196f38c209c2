import ClassAtlas.Text.Hex

/-! Percent encoding of the bytes of a path. -/

namespace ClassAtlas

/-- Letters, digits, `_.-~` and the slash stand for themselves. -/
def isUnreserved (b : UInt8) : Bool :=
  let c := Char.ofNat b.toNat
  b < 0x80 && (c.isAlphanum || "_.-~/".toList.contains c)

def percentByte (b : UInt8) : List Char :=
  if isUnreserved b then [Char.ofNat b.toNat] else '%' :: Hex.digits 'A' 2 b.toNat

def percentEncode (text : String) : String :=
  String.ofList (text.toUTF8.toList.flatMap percentByte)

end ClassAtlas
