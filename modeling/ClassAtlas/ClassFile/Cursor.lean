import ClassAtlas.Text.Hex

/-! Bounds-checked big-endian reads over a byte string. -/

namespace ClassAtlas

/-- What is wrong with a byte string that should follow a layout. -/
inductive LayoutFault where
  | truncated (what : String) (needed missing : Nat)
  | trailing (count : Nat) (what : String)
  | badMagic (found : UInt32)
  | unknownTag (tag : UInt8)
  | noSecondSlot (kind : String) (slots : Nat)
  deriving DecidableEq, Repr

def LayoutFault.message : LayoutFault → String
  | truncated what needed missing =>
    s!"unexpected end of data reading {what}: need {needed} bytes, {missing} missing"
  | trailing count what => s!"{count} trailing bytes after {what}"
  | badMagic found => s!"bad magic 0x{Hex.upper 8 found.toNat}, expected 0xCAFEBABE"
  | unknownTag tag => s!"unknown constant pool tag {tag.toNat}"
  | noSecondSlot kind slots =>
    s!"{kind} entry at pool index {slots} needs two slots but the pool has {slots}"

/-- A fault and the offset where it shows. -/
structure LayoutError where
  fault : LayoutFault
  offset : Nat
  deriving DecidableEq, Repr

def LayoutError.message (e : LayoutError) : String :=
  s!"{e.fault.message} (at offset {e.offset})"

/-- The bytes still to be read and the number of bytes before them. -/
structure Cursor where
  offset : Nat
  rest : List UInt8
  deriving DecidableEq, Repr

/-- A step that moves the cursor, or fails. -/
def Read (α : Type) := Cursor → Except LayoutError (α × Cursor)

namespace Cursor

def ofBytes (bytes : List UInt8) : Cursor :=
  ⟨0, bytes⟩

def remaining (c : Cursor) : Nat :=
  c.rest.length

end Cursor

namespace Read

variable {α β : Type}

def pure (a : α) : Read α :=
  fun c => .ok (a, c)

def bind (x : Read α) (f : α → Read β) : Read β :=
  fun c =>
    match x c with
    | .ok (a, c') => f a c'
    | .error e => .error e

instance : Monad Read where
  pure := pure
  bind := bind

def fail (fault : LayoutFault) : Read α :=
  fun c => .error ⟨fault, c.offset⟩

def failAt (offset : Nat) (fault : LayoutFault) : Read α :=
  fun _ => .error ⟨fault, offset⟩

def offset : Read Nat :=
  fun c => .ok (c.offset, c)

/-- The first `n` bytes and what follows, or the number of bytes missing. -/
def split : (n : Nat) → List UInt8 → Except Nat (List UInt8 × List UInt8)
  | 0, bs => .ok ([], bs)
  | n + 1, [] => .error (n + 1)
  | n + 1, b :: bs =>
    match split n bs with
    | .ok (front, back) => .ok (b :: front, back)
    | .error missing => .error missing

def bytes (size : Nat) (what : String) : Read (List UInt8) :=
  fun c =>
    match split size c.rest with
    | .ok (front, back) => .ok (front, ⟨c.offset + size, back⟩)
    | .error missing => .error ⟨.truncated what size missing, c.offset⟩

def u8 (what : String) : Read UInt8 :=
  fun c =>
    match c.rest with
    | a :: rest => .ok (a, ⟨c.offset + 1, rest⟩)
    | rest => .error ⟨.truncated what 1 (1 - rest.length), c.offset⟩

def word (a b : UInt8) : UInt16 :=
  a.toUInt16 <<< 8 ||| b.toUInt16

def u16 (what : String) : Read UInt16 :=
  fun c =>
    match c.rest with
    | a :: b :: rest => .ok (word a b, ⟨c.offset + 2, rest⟩)
    | rest => .error ⟨.truncated what 2 (2 - rest.length), c.offset⟩

def doubleWord (a b c d : UInt8) : UInt32 :=
  (word a b).toUInt32 <<< 16 ||| (word c d).toUInt32

def u32 (what : String) : Read UInt32 :=
  fun c =>
    match c.rest with
    | a :: b :: d :: e :: rest => .ok (doubleWord a b d e, ⟨c.offset + 4, rest⟩)
    | rest => .error ⟨.truncated what 4 (4 - rest.length), c.offset⟩

def u64 (what : String) : Read UInt64 :=
  fun c =>
    match c.rest with
    | a :: b :: d :: e :: f :: g :: h :: i :: rest =>
      .ok ((doubleWord a b d e).toUInt64 <<< 32 ||| (doubleWord f g h i).toUInt64,
        ⟨c.offset + 8, rest⟩)
    | rest => .error ⟨.truncated what 8 (8 - rest.length), c.offset⟩

/-- Fails if bytes are left. -/
def atEnd (what : String) : Read Unit :=
  fun c =>
    match c.rest with
    | [] => .ok ((), c)
    | rest => .error ⟨.trailing rest.length what, c.offset⟩

/-- Runs `item` `n` times; `done` holds the results so far, backwards. -/
def timesOnto (item : Read α) : (n : Nat) → (done : List α) → Read (List α)
  | 0, done => Read.pure done.reverse
  | n + 1, done => Read.bind item fun a => timesOnto item n (a :: done)

def times (n : Nat) (item : Read α) : Read (List α) :=
  timesOnto item n []

/-- Reads a two-byte count and as many items. -/
def counted (what : String) (item : Read α) : Read (List α) :=
  Read.bind (u16 what) fun n => times n.toNat item

/-- Runs a step over a whole byte string. -/
def run (x : Read α) (bytes : List UInt8) : Except LayoutError α :=
  match x (.ofBytes bytes) with
  | .ok (a, _) => .ok a
  | .error e => .error e

end Read

end ClassAtlas
