import ClassAtlas.ClassFile.Pool

/-! The numbers that float and double entries stand for, as bits of a double. -/

namespace ClassAtlas

/-- The double of the same value as a float. -/
def widen (bits : UInt32) : UInt64 :=
  let sign := (bits >>> 31).toUInt64 <<< 63
  let exponent := (bits >>> 23 &&& 0xFF).toUInt64
  let fraction := (bits &&& 0x7FFFFF).toUInt64
  if exponent = 255 then sign ||| (0x7FF : UInt64) <<< 52 ||| fraction <<< 29
  else if exponent = 0 then
    if fraction = 0 then sign
    else
      let top := fraction.toNat.log2.toUInt64
      sign ||| (top + 874) <<< 52 ||| (fraction - (1 : UInt64) <<< top) <<< (52 - top)
  else sign ||| (exponent + 896) <<< 52 ||| fraction <<< 29

def isNaN (bits : UInt64) : Bool :=
  bits >>> 52 &&& 0x7FF == 0x7FF && bits &&& 0xFFFFFFFFFFFFF != 0

/-- The value of a float or double entry; `none` if it is no number. -/
def Entry.double? : Entry → Option UInt64
  | float bits => if isNaN (widen bits) then none else some (widen bits)
  | double bits => if isNaN bits then none else some bits
  | _ => none

end ClassAtlas
