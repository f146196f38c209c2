import ClassAtlas.Archive.Bits

/-! Decompression of raw deflate data. Data that ends early yields what was complete by then; data
that cannot be right is refused. -/

namespace ClassAtlas.Inflate

open Unpacking

/-- The bytes from the next byte boundary on. -/
def aligned (b : Bits) : List UInt8 :=
  if b.used = 0 then b.rest else b.rest.tail

/-- Codes still free after those of the given lengths; `none` if there are too many. -/
def unused : List Nat → (free : Nat) → Option Nat
  | [], free => some free
  | count :: counts, free => if 2 * free < count then none else unused counts (2 * free - count)

/-- The canonical code of some lengths. Codes have to be used up, unless `lone` allows a single one
of length one, or none at all. -/
def codeOfLengths (lone : Bool) (lengths : List Nat) : Except Stop Code :=
  let longest := lengths.foldl max 0
  let code := Code.canonical (max longest 1) lengths
  match unused code.counts 1 with
  | none => .error .bad
  | some free =>
    if 0 < free && 0 < longest && !(lone && longest == 1) then .error .bad else .ok code

/-- Base value and number of extra bits of the length symbols from 257 on. -/
def lengthTable : Array (Nat × Nat) :=
  #[(3, 0), (4, 0), (5, 0), (6, 0), (7, 0), (8, 0), (9, 0), (10, 0), (11, 1), (13, 1), (15, 1),
    (17, 1), (19, 2), (23, 2), (27, 2), (31, 2), (35, 3), (43, 3), (51, 3), (59, 3), (67, 4),
    (83, 4), (99, 4), (115, 4), (131, 5), (163, 5), (195, 5), (227, 5), (258, 0)]

/-- Base value and number of extra bits of the distance symbols. -/
def distanceTable : Array (Nat × Nat) :=
  #[(1, 0), (2, 0), (3, 0), (4, 0), (5, 1), (7, 1), (9, 2), (13, 2), (17, 3), (25, 3), (33, 4),
    (49, 4), (65, 5), (97, 5), (129, 6), (193, 6), (257, 7), (385, 7), (513, 8), (769, 8),
    (1025, 9), (1537, 9), (2049, 10), (3073, 10), (4097, 11), (6145, 11), (8193, 12),
    (12289, 12), (16385, 13), (24577, 13)]

/-- Reads the extra bits of a symbol of one of the tables. -/
def readExtra (table : Array (Nat × Nat)) (symbol : Nat) : Step Nat :=
  match table[symbol]? with
  | none => throw .bad
  | some (base, extra) => do return base + (← lowNumber extra)

/-- What a symbol of a compressed block stands for. -/
inductive Token where
  | literal (byte : UInt8)
  | repeated (count distance : Nat)
  | stop

def readToken (literals distances : Code) : Step Token := do
  let symbol ← literals.read .lowFirst
  if symbol < 256 then return .literal (UInt8.ofNat symbol)
  else if symbol = 256 then return .stop
  else
    let count ← readExtra lengthTable (symbol - 257)
    return .repeated count (← readExtra distanceTable (← distances.read .lowFirst))

/-- How far decompression got: to the end of a block, or to the end of the data. -/
inductive Progress where
  | block (out : Array UInt8) (bits : Bits)
  | short (out : Array UInt8)

/-- Tokens up to the end of a block. Each takes a bit at least. -/
def runTokens (literals distances : Code) : (fuel : Nat) → Array UInt8 → Bits →
    Except Stop Progress
  | 0, out, _ => .ok (.short out)
  | fuel + 1, out, b =>
    match readToken literals distances b with
    | .error .short => .ok (.short out)
    | .error .bad => .error .bad
    | .ok (.literal byte, b) => runTokens literals distances fuel (out.push byte) b
    | .ok (.stop, b) => .ok (.block out b)
    | .ok (.repeated count distance, b) =>
      if out.size < distance then .error .bad
      else runTokens literals distances fuel (copyBack distance count out) b

/-- The order in which the lengths of the length code are stored. -/
def lengthOrder : List Nat :=
  [16, 17, 18, 0, 8, 7, 9, 6, 10, 5, 11, 4, 12, 3, 13, 2, 14, 1, 15]

def readLengthCode : (n : Nat) → Step (List Nat)
  | 0 => return []
  | n + 1 => do
    let length ← lowNumber 3
    return length :: (← readLengthCode n)

/-- Lengths of the length code by symbol. -/
def arrangeLengths (stored : List Nat) : List Nat :=
  (List.range 19).map fun symbol => ((lengthOrder.zip stored).lookup symbol).getD 0

/-- Without any code every bit stands for the length zero. -/
def lengthCodeOf (lengths : List Nat) : Except Stop Code :=
  if lengths.all (· == 0) then .ok ⟨[2], #[0, 0]⟩ else codeOfLengths false lengths

/-- Appends `count` copies of a length, of which `total` are wanted. -/
def appendLengths (total : Nat) (done : Array Nat) (length count : Nat) :
    Except Stop (Array Nat) :=
  if total < done.size + count then .error .bad else .ok (done ++ Array.replicate count length)

/-- Code lengths up to `total`, with runs written out. -/
def readLengths (code : Code) (total : Nat) : (fuel : Nat) → Array Nat → Step (Array Nat)
  | 0, done => return done
  | fuel + 1, done => do
    if total ≤ done.size then return done
    let symbol ← code.read .lowFirst
    if symbol < 16 then readLengths code total fuel (done.push symbol)
    else if symbol = 16 then
      let count := 3 + (← lowNumber 2)
      match done.back? with
      | none => throw .bad
      | some last => readLengths code total fuel (← appendLengths total done last count)
    else
      let count ← if symbol = 17 then (3 + ·) <$> lowNumber 3 else (11 + ·) <$> lowNumber 7
      readLengths code total fuel (← appendLengths total done 0 count)

/-- The two codes at the start of a block with codes of its own. -/
def readCodes : Step (Code × Code) := do
  let literalCount := (← lowNumber 5) + 257
  let distanceCount := (← lowNumber 5) + 1
  let storedCount := (← lowNumber 4) + 4
  if 286 < literalCount || 30 < distanceCount then throw .bad
  let lengthCode ← lengthCodeOf (arrangeLengths (← readLengthCode storedCount))
  let total := literalCount + distanceCount
  let lengths := (← readLengths lengthCode total total #[]).toList
  if lengths[256]?.getD 0 = 0 then throw .bad
  return (← codeOfLengths true (lengths.take literalCount),
    ← codeOfLengths true (lengths.drop literalCount))

/-- The codes of blocks that bring none along. -/
def fixedCodes : Except Stop (Code × Code) := do
  let literals ← codeOfLengths false (List.replicate 144 8 ++ List.replicate 112 9 ++
    List.replicate 24 7 ++ List.replicate 8 8)
  let distances ← codeOfLengths false (List.replicate 32 5)
  return (literals, distances)

/-- A block of bytes as they are, after its length and the complement of it. -/
def runStored (out : Array UInt8) (b : Bits) : Except Stop Progress :=
  match aligned b with
  | a :: c :: d :: e :: rest =>
    let size := a.toNat + 256 * c.toNat
    if size + (d.toNat + 256 * e.toNat) ≠ 0xFFFF then .error .bad
    else if rest.length < size then .ok (.short (out ++ rest.toArray))
    else .ok (.block (out ++ (rest.take size).toArray) ⟨rest.drop size, 0⟩)
  | _ => .ok (.short out)

def runCompressed (codes : Step (Code × Code)) (out : Array UInt8) (b : Bits) :
    Except Stop Progress :=
  match codes b with
  | .error .short => .ok (.short out)
  | .error .bad => .error .bad
  | .ok ((literals, distances), b) =>
    runTokens literals distances (8 * b.rest.length + 1) out b

/-- One block, given its type. -/
def runBlock (type : Nat) (out : Array UInt8) (b : Bits) : Except Stop Progress :=
  if type = 0 then runStored out b
  else if type = 1 then runCompressed (liftM fixedCodes) out b
  else if type = 2 then runCompressed readCodes out b
  else .error .bad

/-- Whether the block is the last one, and its type. -/
def readBlockHeader : Step (Nat × Nat) := do
  let final ← nextBit .lowFirst
  return (final, ← lowNumber 2)

/-- Blocks up to the last one; the second part says whether it was reached. -/
def runBlocks : (fuel : Nat) → Array UInt8 → Bits → Except Stop (Array UInt8 × Bool)
  | 0, out, _ => .ok (out, false)
  | fuel + 1, out, b =>
    match readBlockHeader b with
    | .error .short => .ok (out, false)
    | .error .bad => .error .bad
    | .ok ((final, type), b) =>
      match runBlock type out b with
      | .error e => .error e
      | .ok (.short out) => .ok (out, false)
      | .ok (.block out b) => if final = 1 then .ok (out, true) else runBlocks fuel out b

/-- The decompressed bytes and whether the data is complete, or `none` for data that is no deflate
data. -/
def decode (packed : List UInt8) : Option (List UInt8 × Bool) :=
  match runBlocks (8 * packed.length + 1) #[] ⟨packed, 0⟩ with
  | .ok (out, complete) => some (out.toList, complete)
  | .error _ => none

end ClassAtlas.Inflate
