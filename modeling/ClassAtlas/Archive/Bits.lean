/-! Reading packed data bit by bit, and the codes of symbols in it. Bytes are taken apart from their
lowest bit on or from their highest. -/

namespace ClassAtlas.Unpacking

/-- Why reading stops: the data ends early, or it cannot be right. -/
inductive Stop where
  | short
  | bad

/-- Bits still to be read; of the first byte `used` are gone. -/
structure Bits where
  rest : List UInt8
  used : Nat

/-- Reads from the bits that are left. -/
abbrev Step := StateT Bits (Except Stop)

inductive Order where
  | lowFirst
  | highFirst

/-- The place in a byte of the bit that is next when `used` are gone. -/
def Order.place : Order → (used : Nat) → Nat
  | lowFirst, used => used
  | highFirst, used => 7 - used

def nextBit (order : Order) : Step Nat :=
  fun b =>
    match b.rest with
    | [] => .error .short
    | byte :: rest =>
      let bit := byte.toNat >>> order.place b.used % 2
      if b.used = 7 then .ok (bit, ⟨rest, 0⟩) else .ok (bit, ⟨byte :: rest, b.used + 1⟩)

/-- A number of `n` bits, lowest first. -/
def lowNumber : (n : Nat) → Step Nat
  | 0 => return 0
  | n + 1 => do
    let low ← nextBit .lowFirst
    return low + 2 * (← lowNumber n)

/-- A number of `n` bits, highest first, behind the bits in `high`. -/
def highNumber (high : Nat) : (n : Nat) → Step Nat
  | 0 => return high
  | n + 1 => do
    let low ← nextBit .highFirst
    highNumber (2 * high + low) n

/-- A canonical code: the number of codes of each length from one up, and the symbols in the order
of their codes. -/
structure Code where
  counts : List Nat
  symbols : Array Nat

/-- The code in which symbol `i` has the length at position `i`, zero for no code. Lengths up to
`longest` count. -/
def Code.canonical (longest : Nat) (lengths : List Nat) : Code :=
  let counts := (List.range longest).map fun i => lengths.count (i + 1)
  let indexed := lengths.zipIdx
  let symbols := (List.range longest).flatMap fun i =>
    (indexed.filter fun p => p.1 == i + 1).map Prod.snd
  ⟨counts, symbols.toArray⟩

/-- Follows a code bit by bit; `first` is the first code of the length at hand and `index` the
place of its symbol. -/
def Code.follow (order : Order) (symbols : Array Nat) : (counts : List Nat) →
    (code first index : Nat) → Step Nat
  | [], _, _, _ => throw .bad
  | count :: counts, code, first, index => do
    let code := 2 * code + (← nextBit order)
    if code < first + count then
      match symbols[index + (code - first)]? with
      | some symbol => return symbol
      | none => throw .bad
    else follow order symbols counts code (2 * (first + count)) (index + count)

def Code.read (order : Order) (c : Code) : Step Nat :=
  Code.follow order c.symbols c.counts 0 0 0

/-- Repeats what stands `distance` bytes back. -/
def copyBack (distance : Nat) : (count : Nat) → Array UInt8 → Array UInt8
  | 0, out => out
  | count + 1, out => copyBack distance count (out.push (out[out.size - distance]?.getD 0))

end ClassAtlas.Unpacking
