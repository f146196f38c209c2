/-! The 32-bit cyclic redundancy check of zip archives. -/

namespace ClassAtlas.Checksum

/-- One bit of the division by the reflected polynomial. -/
def shift (r : UInt32) : UInt32 :=
  if r &&& 1 = 1 then r >>> 1 ^^^ 0xEDB88320 else r >>> 1

def step (r : UInt32) (b : UInt8) : UInt32 :=
  let r := r ^^^ b.toUInt32
  shift (shift (shift (shift (shift (shift (shift (shift r)))))))

def ofBytes (bytes : List UInt8) : UInt32 :=
  bytes.foldl step 0xFFFFFFFF ^^^ 0xFFFFFFFF

end ClassAtlas.Checksum
