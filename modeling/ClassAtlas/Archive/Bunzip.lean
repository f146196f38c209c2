import ClassAtlas.Archive.Bits

/-! Decompression of bzip2 data: blocks of bytes that have been sorted, put in front when used and
coded. Data that ends early yields the blocks that were complete by then; data that cannot be right
is refused. -/

namespace ClassAtlas.Bunzip

open Unpacking

/-- One bit of the division by the polynomial, highest bit first. -/
def shift (r : UInt32) : UInt32 :=
  if r >>> 31 = 1 then r <<< 1 ^^^ 0x04C11DB7 else r <<< 1

def checkStep (r : UInt32) (b : UInt8) : UInt32 :=
  let r := r ^^^ b.toUInt32 <<< 24
  shift (shift (shift (shift (shift (shift (shift (shift r)))))))

/-- The 32-bit cyclic redundancy check of a block. -/
def checksum (bytes : Array UInt8) : UInt32 :=
  ~~~(bytes.foldl checkStep 0xFFFFFFFF)

/-- Reads bytes that have to be there. -/
def expect : List Nat → Step Unit
  | [] => return ()
  | byte :: bytes => do
    if (← highNumber 0 8) ≠ byte then throw .bad
    expect bytes

/-- The numbers at which bits are set, of `n` from `start` on. -/
def readSet (start : Nat) : (n : Nat) → Step (List Nat)
  | 0 => return []
  | n + 1 => do
    let bit ← nextBit .highFirst
    let rest ← readSet (start + 1) n
    return if bit = 1 then start :: rest else rest

def readSets : List Nat → Step (List Nat)
  | [] => return []
  | high :: highs => do
    let set ← readSet (16 * high) 16
    return set ++ (← readSets highs)

/-- The bytes that a block has, by two levels of sets. -/
def readUsed : Step (List UInt8) := do
  let used ← readSets (← readSet 0 16)
  return used.map UInt8.ofNat

/-- A number of ones, fewer than `bound`, up to a zero. -/
def readOnes : (bound : Nat) → Step Nat
  | 0 => throw .bad
  | bound + 1 => do
    if (← nextBit .highFirst) = 0 then return 0
    return 1 + (← readOnes bound)

/-- Moves the item at a place to the front. -/
def toFront {α : Type} (place : Nat) (items : List α) : List α :=
  items[place]?.toList ++ items.eraseIdx place

/-- Which code each group of symbols has. Places are those in a list that has the one used last in
front. -/
def readSelectors (codes : Nat) : (n : Nat) → List Nat → Step (List Nat)
  | 0, _ => return []
  | n + 1, order => do
    let order := toFront (← readOnes codes) order
    return order.head?.toList ++ (← readSelectors codes n order)

/-- No more selectors are of use. -/
def maxSelectors : Nat := 18002

def maxLength : Nat := 20

/-- Goes from one code length to the next by steps of one. Each takes two bits. -/
def readLength : (fuel : Nat) → (length : Nat) → Step Nat
  | 0, _ => throw .short
  | fuel + 1, length => do
    if length < 1 || maxLength < length then throw .bad
    if (← nextBit .highFirst) = 0 then return length
    if (← nextBit .highFirst) = 0 then readLength fuel (length + 1)
    else readLength fuel (length - 1)

def readLengths (fuel : Nat) : (n : Nat) → (length : Nat) → Step (List Nat)
  | 0, _ => return []
  | n + 1, length => do
    let length ← readLength fuel length
    return length :: (← readLengths fuel n length)

/-- A code that is too long by one shows only when that bit has been read. -/
def readCode (fuel symbols : Nat) : Step Code := do
  let length ← highNumber 0 5
  return .canonical (maxLength + 1) (← readLengths fuel symbols length)

def readCodes (fuel symbols : Nat) : (n : Nat) → Step (List Code)
  | 0 => return []
  | n + 1 => do
    let code ← readCode fuel symbols
    return code :: (← readCodes fuel symbols n)

/-- Symbols still to be read: the codes by number, the selectors of the groups to come, the code of
the group at hand and what is left of it. -/
structure Groups where
  codes : Array Code
  selectors : List Nat
  code : Code
  left : Nat

def groupSize : Nat := 50

def readSymbol (g : Groups) : Step (Nat × Groups) := do
  match g.left, g.selectors with
  | left + 1, _ => return (← g.code.read .highFirst, { g with left })
  | 0, [] => throw .bad
  | 0, selector :: selectors =>
    let code := g.codes[selector]?.getD ⟨[], #[]⟩
    return (← code.read .highFirst, ⟨g.codes, selectors, code, groupSize - 1⟩)

/-- A run of the byte in front: its length so far, and what the next digit of it counts. -/
structure FrontRun where
  count : Nat
  weight : Nat

def maxWeight : Nat := 2 * 1024 * 1024

/-- Appends a run, for which there has to be room. -/
def FrontRun.append (run : FrontRun) (room : Nat) (used : List UInt8) (out : Array UInt8) :
    Except Stop (Array UInt8) :=
  if room < out.size + run.count then .error .bad
  else .ok (out ++ Array.replicate run.count (used.headD 0))

/-- The sorted bytes of a block, up to the symbol that ends it. Symbols zero and one are digits of a
run; the others are places of bytes, plus one. -/
def readSorted (room last : Nat) : (fuel : Nat) → Groups → FrontRun → (used : List UInt8) →
    Array UInt8 → Step (Array UInt8)
  | 0, _, _, _, _ => throw .short
  | fuel + 1, g, run, used, out => do
    let (symbol, g) ← readSymbol g
    if symbol < 2 then
      if maxWeight ≤ run.weight then throw .bad
      let run := ⟨run.count + (symbol + 1) * run.weight, 2 * run.weight⟩
      readSorted room last fuel g run used out
    else
      let out ← run.append room used out
      if symbol = last then return out
      let used := toFront (symbol - 1) used
      let out ← FrontRun.append ⟨1, 1⟩ room used out
      readSorted room last fuel g ⟨0, 1⟩ used out

/-- How many bytes are less than each byte. -/
def startsOf (bytes : Array UInt8) : Array Nat :=
  let counts := bytes.foldl (fun counts b => counts.modify b.toNat (· + 1)) (Array.replicate 256 0)
  (counts.foldl (fun (starts, sum) count => (starts.push sum, sum + count))
    ((#[] : Array Nat), 0)).1

/-- Where each byte in order stands among the sorted ones. -/
def successors (bytes : Array UInt8) : Array Nat :=
  let place (next starts : Array Nat) (i : Nat) (b : UInt8) : Array Nat × Array Nat :=
    let start := starts[b.toNat]?.getD 0
    (next.setIfInBounds start i, starts.modify b.toNat (· + 1))
  ((List.range bytes.size).foldl
    (fun (next, starts) i => place next starts i (bytes[i]?.getD 0))
    (Array.replicate bytes.size 0, startsOf bytes)).1

/-- Puts sorted bytes back in order, from the one behind `place` on. -/
def unsort (bytes : Array UInt8) (next : Array Nat) : (count place : Nat) → Array UInt8 →
    Array UInt8
  | 0, _, out => out
  | count + 1, place, out =>
    let place := next[place]?.getD 0
    unsort bytes next count place (out.push (bytes[place]?.getD 0))

/-- Distances between the bytes with a flipped bit, in blocks that were disturbed on purpose. -/
def distances : Array Nat :=
  #[619, 720, 127, 481, 931, 816, 813, 233, 566, 247, 985, 724, 205, 454, 863, 491, 741, 242, 949,
    214, 733, 859, 335, 708, 621, 574, 73, 654, 730, 472, 419, 436, 278, 496, 867, 210, 399, 680,
    480, 51, 878, 465, 811, 169, 869, 675, 611, 697, 867, 561, 862, 687, 507, 283, 482, 129, 807,
    591, 733, 623, 150, 238, 59, 379, 684, 877, 625, 169, 643, 105, 170, 607, 520, 932, 727, 476,
    693, 425, 174, 647, 73, 122, 335, 530, 442, 853, 695, 249, 445, 515, 909, 545, 703, 919, 874,
    474, 882, 500, 594, 612, 641, 801, 220, 162, 819, 984, 589, 513, 495, 799, 161, 604, 958, 533,
    221, 400, 386, 867, 600, 782, 382, 596, 414, 171, 516, 375, 682, 485, 911, 276, 98, 553, 163,
    354, 666, 933, 424, 341, 533, 870, 227, 730, 475, 186, 263, 647, 537, 686, 600, 224, 469, 68,
    770, 919, 190, 373, 294, 822, 808, 206, 184, 943, 795, 384, 383, 461, 404, 758, 839, 887, 715,
    67, 618, 276, 204, 918, 873, 777, 604, 560, 951, 160, 578, 722, 79, 804, 96, 409, 713, 940,
    652, 934, 970, 447, 318, 353, 859, 672, 112, 785, 645, 863, 803, 350, 139, 93, 354, 99, 820,
    908, 609, 772, 154, 274, 580, 184, 79, 626, 630, 742, 653, 282, 762, 623, 680, 81, 927, 626,
    789, 125, 411, 521, 938, 300, 821, 78, 343, 175, 128, 250, 170, 774, 972, 275, 999, 639, 495,
    78, 352, 126, 857, 956, 358, 619, 580, 124, 737, 594, 701, 612, 669, 112, 134, 694, 363, 992,
    809, 743, 168, 974, 944, 375, 748, 52, 600, 747, 642, 182, 862, 81, 344, 805, 988, 739, 511,
    655, 814, 334, 249, 515, 897, 955, 664, 981, 649, 113, 974, 459, 893, 228, 433, 837, 553, 268,
    926, 240, 102, 654, 459, 51, 686, 754, 806, 760, 493, 403, 415, 394, 687, 700, 946, 670, 656,
    610, 738, 392, 760, 799, 887, 653, 978, 321, 576, 617, 626, 502, 894, 679, 243, 440, 680, 879,
    194, 572, 640, 724, 926, 56, 204, 700, 707, 151, 457, 449, 797, 195, 791, 558, 945, 679, 297,
    59, 87, 824, 713, 663, 412, 693, 342, 606, 134, 108, 571, 364, 631, 212, 174, 643, 304, 329,
    343, 97, 430, 751, 497, 314, 983, 374, 822, 928, 140, 206, 73, 263, 980, 736, 876, 478, 430,
    305, 170, 514, 364, 692, 829, 82, 855, 953, 676, 246, 369, 970, 294, 750, 807, 827, 150, 790,
    288, 923, 804, 378, 215, 828, 592, 281, 565, 555, 710, 82, 896, 831, 547, 261, 524, 462, 293,
    465, 502, 56, 661, 821, 976, 991, 658, 869, 905, 758, 745, 193, 768, 550, 608, 933, 378, 286,
    215, 979, 792, 961, 61, 688, 793, 644, 986, 403, 106, 366, 905, 644, 372, 567, 466, 434, 645,
    210, 389, 550, 919, 135, 780, 773, 635, 389, 707, 100, 626, 958, 165, 504, 920, 176, 193, 713,
    857, 265, 203, 50, 668, 108, 645, 990, 626, 197, 510, 357, 358, 850, 858, 364, 936, 638]

/-- Flips the bits back; the next one is in the last but one of the `left` bytes at hand. -/
def calm : (left turn : Nat) → List UInt8 → Array UInt8 → List UInt8
  | _, _, [], out => out.toList
  | 0, turn, b :: bs, out =>
    calm (distances[turn]?.getD 0 - 1) ((turn + 1) % distances.size) bs (out.push b)
  | left + 1, turn, b :: bs, out => calm left turn bs (out.push (if left = 1 then b ^^^ 1 else b))

/-- Four equal bytes are followed by the number of those that were left out behind them. -/
def expandRuns :
    (last : UInt8) → (count : Nat) → List UInt8 → Array UInt8 → Except Stop (Array UInt8)
  | last, count, b :: bs, out =>
    if count = 4 then expandRuns last 0 bs (out ++ Array.replicate b.toNat last)
    else if 0 < count && b = last then expandRuns last (count + 1) bs (out.push b)
    else expandRuns b 1 bs (out.push b)
  | _, count, [], out => if count = 4 then .error .bad else .ok out

/-- The bytes of a block, with room for `room` of them before the last runs are written out. -/
def readBlock (room : Nat) : Step (Array UInt8) := do
  let disturbed ← nextBit .highFirst
  let start ← highNumber 0 24
  if room + 10 < start then throw .bad
  let used ← readUsed
  if used.isEmpty then throw .bad
  let codes ← highNumber 0 3
  if codes < 2 || 6 < codes then throw .bad
  let count ← highNumber 0 15
  if count < 1 then throw .bad
  let selectors ← readSelectors codes count (List.range codes)
  let fuel := 8 * (← get).rest.length + 1
  let table ← readCodes fuel (used.length + 2) codes
  let g : Groups := ⟨table.toArray, selectors.take maxSelectors, ⟨[], #[]⟩, 0⟩
  let sorted ← readSorted room (used.length + 1) fuel g ⟨0, 1⟩ used #[]
  if sorted.size ≤ start then throw .bad
  let next := successors sorted
  let bytes := (unsort sorted next sorted.size start #[]).toList
  expandRuns 0 0 (if disturbed = 1 then calm 0 0 bytes #[] else bytes) #[]

def readWord : Step UInt32 :=
  UInt32.ofNat <$> highNumber 0 32

/-- A block with the check of all blocks up to it, or the end with that check. -/
def readPart (room : Nat) (check : UInt32) : Step (Option (Array UInt8 × UInt32)) := do
  let magic ← highNumber 0 8
  if magic = 0x17 then
    expect [0x72, 0x45, 0x38, 0x50, 0x90]
    if (← readWord) ≠ check then throw .bad
    return none
  else
    if magic ≠ 0x31 then throw .bad
    expect [0x41, 0x59, 0x26, 0x53, 0x59]
    let stored ← readWord
    let bytes ← readBlock room
    if checksum bytes ≠ stored then throw .bad
    return some (bytes, (check <<< 1 ||| check >>> 31) ^^^ stored)

/-- Blocks up to the end; the second part says whether it was reached. -/
def runParts (room : Nat) : (fuel : Nat) → (check : UInt32) → Array UInt8 → Bits →
    Except Stop (Array UInt8 × Bool)
  | 0, _, out, _ => .ok (out, false)
  | fuel + 1, check, out, b =>
    match readPart room check b with
    | .error .short => .ok (out, false)
    | .error .bad => .error .bad
    | .ok (none, _) => .ok (out, true)
    | .ok (some (bytes, check), b) => runParts room fuel check (out ++ bytes) b

/-- How many bytes a block has room for, by the digit in the header. -/
def readHeader : Step Nat := do
  expect [0x42, 0x5A, 0x68]
  let digit ← highNumber 0 8
  if digit < 0x31 || 0x39 < digit then throw .bad
  return 100000 * (digit - 0x30)

/-- The decompressed bytes and whether the data is complete, or `none` for data that is no bzip2
data. -/
def decode (packed : List UInt8) : Option (List UInt8 × Bool) :=
  let result := do
    let (room, b) ← readHeader ⟨packed, 0⟩
    runParts room (packed.length + 1) 0 #[] b
  match result with
  | .ok (out, complete) => some (out.toList, complete)
  | .error .short => some ([], false)
  | .error .bad => none

end ClassAtlas.Bunzip
