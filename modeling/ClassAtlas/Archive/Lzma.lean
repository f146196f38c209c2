import ClassAtlas.Archive.Bits

/-! Decompression of LZMA data without a header of its own. Bits are told apart by how likely they
are, and what is likely follows from the bits before. -/

namespace ClassAtlas.Lzma

open Unpacking

/-- What is set for all of the data: how many high bits of the byte before, low bits of the place,
and low bits of the place of a match count, and how far back a match may reach. -/
structure Options where
  contextBits : Nat
  placeBits : Nat
  matchPlaceBits : Nat
  window : Nat

/-- The options in five bytes, or `none` if they are not supported. -/
def Options.ofBytes? : List UInt8 → Option Options
  | [packed, a, b, c, d] =>
    let n := packed.toNat
    let size := a.toNat + 256 * (b.toNat + 256 * (c.toNat + 256 * d.toNat))
    let o : Options := ⟨n % 9, n / 9 % 5, n / 45, (max size 4096 + 15) / 16 * 16⟩
    if 224 < n || 4 < o.contextBits + o.placeBits then none else some o
  | _ => none

/-- The bytes to come, the range that is left of the last ones, where the data stands in it, and for
each kind of bit the chance of a zero, out of 2048. -/
structure Coder where
  rest : List UInt8
  range : UInt32
  code : UInt32
  chances : Array UInt32

abbrev Step := StateT Coder (Except Stop)

/-- Takes a byte in where the range has become too small. -/
def normalize : Step Unit := do
  let c ← get
  if c.range < 0x1000000 then
    match c.rest with
    | [] => throw .short
    | b :: rest => set { c with rest, range := c.range <<< 8, code := c.code <<< 8 ||| b.toUInt32 }

/-- A bit of some kind. The one that came becomes more likely. -/
def bit (kind : Nat) : Step Nat := do
  normalize
  let c ← get
  let chance := c.chances[kind]?.getD 0
  let bound := (c.range >>> 11) * chance
  if c.code < bound then
    let chances := c.chances.setIfInBounds kind (chance + (2048 - chance) >>> 5)
    set { c with range := bound, chances }
    return 0
  else
    let chances := c.chances.setIfInBounds kind (chance - chance >>> 5)
    set { c with range := c.range - bound, code := c.code - bound, chances }
    return 1

/-- Bits that are as likely as not, highest first, behind those in `high`. -/
def evenBits (high : Nat) : (n : Nat) → Step Nat
  | 0 => return high
  | n + 1 => do
    normalize
    let c ← get
    let range := c.range >>> 1
    let code := c.code - range
    if code >>> 31 = 1 then
      set { c with range }
      evenBits (2 * high) n
    else
      set { c with range, code }
      evenBits (2 * high + 1) n

/-- Bits, highest first, each of a kind that depends on those before it. They are numbered behind a
one. -/
def tree (base high : Nat) : (n : Nat) → Step Nat
  | 0 => return high
  | n + 1 => do
    let low ← bit (base + high)
    tree base (2 * high + low) n

/-- A number of `n` bits, highest first. -/
def treeNumber (base n : Nat) : Step Nat :=
  (· - 1 <<< n) <$> tree base 1 n

/-- A number of `n` bits, lowest first. -/
def reverseNumber (base above : Nat) : (n : Nat) → Step Nat
  | 0 => return 0
  | n + 1 => do
    let low ← bit (base + above)
    return low + 2 * (← reverseNumber base (2 * above + low) n)

/-! Where the kinds of bits have their chances. Kinds that depend on the place of a match have
sixteen for each state, one for each place. -/

def isMatchKind (state place : Nat) : Nat := 16 * state + place
def isRepeatKind (state : Nat) : Nat := 192 + state
def isOlderKind (state : Nat) : Nat := 204 + state
def isThirdKind (state : Nat) : Nat := 216 + state
def isFourthKind (state : Nat) : Nat := 228 + state
def isLongKind (state place : Nat) : Nat := 240 + 16 * state + place
def slotKind (length : Nat) : Nat := 432 + 64 * min (length - 2) 3
def nearKind : Nat := 688
def alignKind : Nat := 816
def matchLengthKind : Nat := 832
def repeatLengthKind : Nat := 1346
def literalKind (context : Nat) : Nat := 1860 + 0x300 * context

/-- The length of a match, in one of three classes. -/
def readLength (base place : Nat) : Step Nat := do
  if (← bit base) = 0 then return 2 + (← treeNumber (base + 2 + 8 * place) 3)
  else if (← bit (base + 1)) = 0 then return 10 + (← treeNumber (base + 130 + 8 * place) 3)
  else return 18 + (← treeNumber (base + 258) 8)

/-- How far back a match begins, less one. The highest bits are in a slot with the number of
bits. -/
def readDistance (length : Nat) : Step Nat := do
  let slot ← treeNumber (slotKind length) 6
  if slot < 4 then return slot
  let count := slot / 2 - 1
  let high := 2 + slot % 2
  if slot < 14 then
    let start := high <<< count
    return start + (← reverseNumber (nearKind + start - slot - 1) 1 count)
  else
    let high ← evenBits high (count - 4)
    return 16 * high + (← reverseNumber alignKind 1 4)

/-- The distance that marks the end. -/
def endDistance : Nat := 0xFFFFFFFF

/-- The bits of a byte that is coded next to another one. As long as they agree, they are of kinds
of their own. -/
def readBeside (base : Nat) : (other : List Nat) → (high : Nat) → Step Nat
  | [], high => return high
  | b :: other, high => do
    let low ← bit (base + 0x100 * (1 + b) + high)
    if low = b then readBeside base other (2 * high + low)
    else tree base (2 * high + low) other.length

/-- The bits of a byte, highest first. -/
def bitsOf (b : UInt8) : List Nat :=
  (List.range 8).map fun i => b.toNat >>> (7 - i) % 2

/-- What has been read before: its kind as one of twelve, and the last four distances. -/
structure Memory where
  state : Nat
  distances : List Nat

/-- A byte after a match is coded next to the one that the match would go on with. -/
def readLiteral (o : Options) (m : Memory) (out : Array UInt8) : Step UInt8 := do
  let before := (out.back?.getD 0).toNat
  let place := out.size % (1 <<< o.placeBits)
  let base := literalKind (place <<< o.contextBits + before >>> (8 - o.contextBits))
  if m.state < 7 then return UInt8.ofNat (← tree base 1 8)
  else
    let other := out[out.size - (m.distances.headD 0 + 1)]?.getD 0
    return UInt8.ofNat (← readBeside base (bitsOf other) 1)

/-- What stands next in the data. -/
inductive Token where
  | literal (byte : UInt8)
  | repeated (count distance : Nat)
  | stop

/-- The next token is a match with one of the last distances, which comes to the front. -/
def readRepeat (m : Memory) (place : Nat) : Step (Token × Memory) := do
  let long (distances : List Nat) : Step (Token × Memory) := do
    let count ← readLength repeatLengthKind place
    let state := if m.state < 7 then 8 else 11
    return (.repeated count (distances.headD 0), ⟨state, distances⟩)
  let pick (i : Nat) : List Nat := m.distances[i]?.toList ++ m.distances.eraseIdx i
  if (← bit (isOlderKind m.state)) = 0 then
    if (← bit (isLongKind m.state place)) = 0 then
      let state := if m.state < 7 then 9 else 11
      return (.repeated 1 (m.distances.headD 0), { m with state })
    else long m.distances
  else if (← bit (isThirdKind m.state)) = 0 then long (pick 1)
  else if (← bit (isFourthKind m.state)) = 0 then long (pick 2)
  else long (pick 3)

def stateAfterLiteral (state : Nat) : Nat :=
  if state < 4 then 0 else if state < 10 then state - 3 else state - 6

/-- The next token. A match goes back to what there is, and not further than the window. -/
def readToken (o : Options) (m : Memory) (out : Array UInt8) : Step (Token × Memory) := do
  let place := out.size % (1 <<< o.matchPlaceBits)
  if (← bit (isMatchKind m.state place)) = 0 then
    return (.literal (← readLiteral o m out), { m with state := stateAfterLiteral m.state })
  else if (← bit (isRepeatKind m.state)) = 0 then
    let count ← readLength matchLengthKind place
    let distance ← readDistance count
    if distance = endDistance then
      normalize
      if (← get).code ≠ 0 then throw .bad
      return (.stop, m)
    if min out.size o.window ≤ distance then throw .bad
    let state := if m.state < 7 then 7 else 10
    return (.repeated count distance, ⟨state, distance :: m.distances.take 3⟩)
  else
    if out.isEmpty then throw .bad
    readRepeat m place

/-- Tokens up to the end; the second part says whether it was reached. -/
def runTokens (o : Options) : (fuel : Nat) → Memory → Array UInt8 → Coder →
    Except Stop (Array UInt8 × Bool)
  | 0, _, out, _ => .ok (out, false)
  | fuel + 1, m, out, c =>
    match readToken o m out c with
    | .error .short => .ok (out, false)
    | .error .bad => .error .bad
    | .ok ((.literal byte, m), c) => runTokens o fuel m (out.push byte) c
    | .ok ((.repeated count distance, m), c) =>
      runTokens o fuel m (copyBack (distance + 1) count out) c
    | .ok ((.stop, _), _) => .ok (out, true)

/-- No byte is enough for more bits, since the chance of each is less than 2048 by 31 at least. -/
def bitsPerByte : Nat := 400

/-- Data begins with a zero and four more bytes. -/
def run (o : Options) (bytes : List UInt8) : Except Stop (Array UInt8 × Bool) :=
  match bytes with
  | [] => .ok (#[], false)
  | first :: bytes =>
    if first ≠ 0 then .error .bad
    else if bytes.length < 4 then .ok (#[], false)
    else
      let code : UInt32 := (bytes.take 4).foldl (fun code b => code <<< 8 ||| b.toUInt32) 0
      let kinds := literalKind (1 <<< (o.contextBits + o.placeBits))
      let c : Coder := ⟨bytes.drop 4, 0xFFFFFFFF, code, Array.replicate kinds 1024⟩
      runTokens o (bitsPerByte * bytes.length) ⟨0, [0, 0, 0, 0]⟩ #[] c

/-- Why data is refused. -/
inductive Fault where
  | badOptions
  | badData
  deriving DecidableEq, Repr

/-- The decompressed bytes and whether the data is complete. The options stand in front, behind two
bytes for a version and two for their size. Without all of them there is nothing to decompress
yet. -/
def decode (packed : List UInt8) : Except Fault (List UInt8 × Bool) :=
  match packed with
  | _ :: _ :: a :: b :: bytes =>
    let size := a.toNat + 256 * b.toNat
    if bytes.length ≤ size then .ok ([], false)
    else
      match Options.ofBytes? (bytes.take size) with
      | none => .error .badOptions
      | some o =>
        match run o (bytes.drop size) with
        | .ok (out, complete) => .ok (out.toList, complete)
        | .error _ => .error .badData
  | _ => .ok ([], false)

end ClassAtlas.Lzma
