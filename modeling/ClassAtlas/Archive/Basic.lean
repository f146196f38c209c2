import ClassAtlas.Archive.Lzma
import ClassAtlas.Text.Hex
import ClassAtlas.Text.Quoted

/-! Zip archives: what their directory says of each member, and what can be wrong with them. -/

namespace ClassAtlas

inductive ArchiveError where
  | notArchive
  | manyDisks
  | badDirectoryOffset
  | truncatedDirectory
  | badDirectoryMagic
  | corruptExtra (tag size : Nat)
  | missingExtra (field : String)
  | badSeek
  | truncatedHeader
  | badHeaderMagic
  | otherName (listed : String) (stored : List UInt8)
  | overlapping (name : String)
  | badChecksum (name : String)
  | unsupported
  | encrypted
  | badData
  | badBlocks
  | lzma (fault : Lzma.Fault)
  | badNameEncoding
  | farOffset
  | endsEarly
  deriving DecidableEq, Repr

namespace ArchiveError

/-- Whether the fault counts as a broken archive. The others mean that the archive asks for
something that is not provided, or show while a member is unpacked. -/
def isBroken : ArchiveError → Bool
  | unsupported => false
  | encrypted => false
  | badData => false
  | lzma _ => false
  | badNameEncoding => false
  | farOffset => false
  | endsEarly => false
  | _ => true

def message : ArchiveError → String
  | notArchive => "File is not a zip file"
  | manyDisks => "zipfiles that span multiple disks are not supported"
  | badDirectoryOffset => "Bad offset for central directory"
  | truncatedDirectory => "Truncated central directory"
  | badDirectoryMagic => "Bad magic number for central directory"
  | corruptExtra tag size => s!"Corrupt extra field {Hex.lower 4 tag} (size={size})"
  | missingExtra field => s!"Corrupt zip64 extra field. {field} not found."
  | badSeek => "[Errno 22] Invalid argument"
  | truncatedHeader => "Truncated file header"
  | badHeaderMagic => "Bad magic number for file header"
  | otherName listed stored =>
    s!"File name in directory {quoted listed} and header {quotedBytes stored} differ."
  | overlapping name => s!"Overlapped entries: {quoted name} (possible zip bomb)"
  | badChecksum name => s!"Bad CRC-32 for file {quoted name}"
  | unsupported => "unsupported archive feature"
  | encrypted => "encrypted member"
  | badData => "invalid compressed data"
  | badBlocks => "Invalid data stream"
  | lzma .badOptions => "Invalid or unsupported options"
  | lzma .badData => "Corrupt input data"
  | badNameEncoding => "member name is not UTF-8"
  | farOffset => "cannot fit 'int' into an offset-sized integer"
  | endsEarly => "the data of a member ends early"

end ArchiveError

/-- A member as the directory lists it. Its data has to end before `limit`. -/
structure ArchiveMember where
  listed : String
  flags : Nat
  method : Nat
  checksum : UInt32
  packedSize : Nat
  size : Nat
  headerOffset : Int
  limit : Int
  deriving DecidableEq, Repr

/-- The name up to the first NUL, under which the member is found. -/
def ArchiveMember.name (m : ArchiveMember) : String :=
  String.ofList (m.listed.toList.takeWhile fun c => c.toNat != 0)

structure Archive where
  bytes : List UInt8
  members : List ArchiveMember
  deriving DecidableEq

/-- The member of a name; of several the one listed last. -/
def Archive.member? (a : Archive) (name : String) : Option ArchiveMember :=
  a.members.reverse.find? fun m => m.name == name

end ClassAtlas
