import ClassAtlas.Archive.Bunzip
import ClassAtlas.Archive.Checksum
import ClassAtlas.Archive.Directory
import ClassAtlas.Archive.Inflate

/-! Reading members of zip archives. -/

namespace ClassAtlas.Archive

def headerMagic : List UInt8 := [0x50, 0x4B, 3, 4]

/-- No file is longer than 2^44 - 4096 bytes. -/
def maxOffset : Int := 1 <<< 44 - 4096

/-- Offsets have to fit into 64 bits, and only those that a file can have are looked up. -/
def checkOffset (offset : Int) : Except ArchiveError Unit :=
  let size : Int := 1 <<< 63
  if offset < -size || size ≤ offset then .error .farOffset
  else if offset < 0 || maxOffset < offset then .error .badSeek
  else .ok ()

/-- The data of a member as stored, after the header in front of it has been compared with the
directory. -/
def packedData (a : Archive) (m : ArchiveMember) : Except ArchiveError (List UInt8) := do
  checkOffset m.headerOffset
  let header := a.bytes.drop m.headerOffset.toNat
  if (header.take 30).length < 30 then throw .truncatedHeader
  if !headerMagic.isPrefixOf header then throw .badHeaderMagic
  let nameSize := field header 26 2
  let stored := (header.drop 30).take nameSize
  if m.flags.testBit 5 || m.flags.testBit 6 then throw .unsupported
  if (← decodeName (field header 6 2) stored) ≠ m.listed then throw (.otherName m.listed stored)
  let start := 30 + nameSize + field header 28 2
  if m.limit < m.headerOffset + start + m.packedSize then throw (.overlapping m.listed)
  if m.flags.testBit 0 then throw .encrypted
  return (header.drop start).take m.packedSize

/-- Members are stored as they are or packed in one of three ways. Only packed data says itself
where it is complete, which is the second part. -/
def unpack (method : Nat) (packed : List UInt8) : Except ArchiveError (List UInt8 × Bool) :=
  match method with
  | 0 => .ok (packed, false)
  | 8 => (Inflate.decode packed).elim (.error .badData) .ok
  | 12 => (Bunzip.decode packed).elim (.error .badBlocks) .ok
  | 14 => (Lzma.decode packed).mapError .lzma
  | _ => .error .unsupported

/-- Whether the archive ends before a member has all its bytes. None at all are always too few, even
for a member without contents. -/
def endsEarly (m : ArchiveMember) (packed bytes : List UInt8) (complete : Bool) : Bool :=
  packed.length < m.packedSize && (packed.isEmpty || (!complete && bytes.length < m.size))

/-- The contents of a member, cut at its listed size and held against its checksum. -/
def read (a : Archive) (m : ArchiveMember) : Except ArchiveError (List UInt8) := do
  let packed ← packedData a m
  let (bytes, complete) ← unpack m.method packed
  if endsEarly m packed bytes complete then throw .endsEarly
  let bytes := bytes.take m.size
  if Checksum.ofBytes bytes ≠ m.checksum then throw (.badChecksum m.name)
  return bytes

end ClassAtlas.Archive
