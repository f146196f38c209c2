import ClassAtlas.Archive.Basic
import ClassAtlas.Text.CodePage437
import ClassAtlas.Text.Utf8

/-! Opening zip archives: the end record, searched from the end, and the directory before it. -/

namespace ClassAtlas.Archive

/-- Little-endian value of some bytes. -/
def littleEndian : List UInt8 → Nat
  | [] => 0
  | b :: bs => b.toNat + 256 * littleEndian bs

/-- Little-endian value of the `size` bytes from `start` on. -/
def field (bytes : List UInt8) (start size : Nat) : Nat :=
  littleEndian ((bytes.drop start).take size)

/-- The position of the last occurrence of some bytes, counted from `start`. -/
def lastOccurrence (sought : List UInt8) : (start : Nat) → List UInt8 → Option Nat
  | _, [] => none
  | start, b :: bs =>
    match lastOccurrence sought (start + 1) bs with
    | some found => some found
    | none => if sought.isPrefixOf (b :: bs) then some start else none

/-- Where the directory lies. `extraSize` bytes stand between it and the end record. -/
structure EndRecord where
  location : Nat
  extraSize : Nat
  directorySize : Nat
  directoryOffset : Nat

def endMagic : List UInt8 := [0x50, 0x4B, 5, 6]

def locatorMagic : List UInt8 := [0x50, 0x4B, 6, 7]

def wideEndMagic : List UInt8 := [0x50, 0x4B, 6, 6]

def directoryMagic : List UInt8 := [0x50, 0x4B, 1, 2]

/-- A record at the very end without a comment, or else the last one in the final 65558 bytes. -/
def endLocation? (bytes : List UInt8) : Option Nat :=
  let size := bytes.length
  if size < 22 then none
  else
    let tail := bytes.drop (size - 22)
    if endMagic.isPrefixOf tail && field tail 20 2 = 0 then some (size - 22)
    else
      let start := size - 65558
      match lastOccurrence endMagic start (bytes.drop start) with
      | some found => if found + 22 ≤ size then some found else none
      | none => none

/-- The record at a location, or the wide one that a locator before it points to. -/
def endRecord (bytes : List UInt8) : Except ArchiveError EndRecord :=
  match endLocation? bytes with
  | none => .error .notArchive
  | some location =>
    let record := bytes.drop location
    let narrow : EndRecord := ⟨location, 0, field record 12 4, field record 16 4⟩
    let locator := bytes.drop (location - 20)
    if location < 20 || !locatorMagic.isPrefixOf locator then .ok narrow
    else if field locator 4 4 ≠ 0 || 1 < field locator 16 4 then .error .manyDisks
    else if location < 76 then .error .notArchive
    else
      let wide := bytes.drop (location - 76)
      if !wideEndMagic.isPrefixOf wide then .ok narrow
      else .ok ⟨location, 76, field wide 40 8, field wide 48 8⟩

/-- The three numbers an extra field may widen. -/
structure Extent where
  size : Nat
  packedSize : Nat
  headerOffset : Nat

/-- Takes eight bytes for a number that is all ones. -/
def widen (narrow : Nat) (wide : Bool) (name : String) (data : List UInt8) :
    Except ArchiveError (Nat × List UInt8) :=
  if !wide then .ok (narrow, data)
  else if data.length < 8 then .error (.missingExtra name)
  else .ok (field data 0 8, data.drop 8)

def Extent.widened (e : Extent) (data : List UInt8) : Except ArchiveError Extent := do
  let wideSize := e.size == 0xFFFFFFFF || e.size == 0xFFFFFFFFFFFFFFFF
  let (size, data) ← widen e.size wideSize "File size" data
  let (packedSize, data) ← widen e.packedSize (e.packedSize == 0xFFFFFFFF) "Compress size" data
  let (offset, _) ← widen e.headerOffset (e.headerOffset == 0xFFFFFFFF) "Header offset" data
  return ⟨size, packedSize, offset⟩

/-- Goes through tagged extra fields; each takes four bytes at least. -/
def readExtras : (fuel : Nat) → Extent → List UInt8 → Except ArchiveError Extent
  | 0, e, _ => .ok e
  | fuel + 1, e, data =>
    if data.length < 4 then .ok e
    else
      let tag := field data 0 2
      let size := field data 2 2
      if data.length < size + 4 then .error (.corruptExtra tag size)
      else do
        let e ← if tag = 1 then e.widened ((data.drop 4).take size) else .ok e
        readExtras fuel e (data.drop (size + 4))

/-- A name in UTF-8 where bit 11 of the flags says so. -/
def decodeName (flags : Nat) (bytes : List UInt8) : Except ArchiveError String :=
  if flags.testBit 11 then
    match Utf8.decode? bytes with
    | some name => .ok name
    | none => .error .badNameEncoding
  else .ok (CodePage437.decode bytes)

/-- The newest version of the format that is read, in tenths. -/
def maxVersion : Nat := 63

/-- One directory entry and its size. Offsets of headers are moved by `shift`. -/
def readMember (shift : Int) (data : List UInt8) : Except ArchiveError (ArchiveMember × Nat) := do
  if data.length < 46 then throw .truncatedDirectory
  if !directoryMagic.isPrefixOf data then throw .badDirectoryMagic
  let flags := field data 8 2
  let nameSize := field data 28 2
  let extraSize := field data 30 2
  let listed ← decodeName flags ((data.drop 46).take nameSize)
  if maxVersion < field data 6 1 then throw .unsupported
  let extra := (data.drop (46 + nameSize)).take extraSize
  let narrow : Extent := ⟨field data 24 4, field data 20 4, field data 42 4⟩
  let e ← readExtras extra.length narrow extra
  let checksum := UInt32.ofNat (field data 16 4)
  return (⟨listed, flags, field data 10 2, checksum, e.packedSize, e.size,
    e.headerOffset + shift, 0⟩,
    46 + nameSize + extraSize + field data 32 2)

def readMembers (shift : Int) : (fuel : Nat) → List UInt8 →
    Except ArchiveError (List ArchiveMember)
  | 0, _ => .ok []
  | fuel + 1, data =>
    if data.isEmpty then .ok []
    else do
      let (m, size) ← readMember shift data
      return m :: (← readMembers shift fuel (data.drop size))

/-- Where the data of a member has to end: at the next header, or at the directory. A member that
shares its header with one listed before it has no room at all. -/
def limitOf (directory : Int) (before all : List ArchiveMember) (m : ArchiveMember) : Int :=
  if before.any fun n => n.headerOffset == m.headerOffset then m.headerOffset
  else
    let later := (all.map ArchiveMember.headerOffset).filter fun o => m.headerOffset < o
    match later with
    | [] => directory
    | first :: rest => rest.foldl min first

def withLimits (directory : Int) (all : List ArchiveMember) : (before : List ArchiveMember) →
    List ArchiveMember → List ArchiveMember
  | _, [] => []
  | before, m :: ms =>
    { m with limit := limitOf directory before all m } :: withLimits directory all (m :: before) ms

def ofBytes (bytes : List UInt8) : Except ArchiveError Archive := do
  let record ← endRecord bytes
  if record.location < record.directorySize + record.extraSize then throw .badDirectoryOffset
  let directory := record.location - record.extraSize - record.directorySize
  let shift : Int := directory - record.directoryOffset
  let data := (bytes.drop directory).take record.directorySize
  let members ← readMembers shift data.length data
  return ⟨bytes, withLimits directory members [] members⟩

end ClassAtlas.Archive
