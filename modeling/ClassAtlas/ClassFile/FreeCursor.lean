import ClassAtlas.ClassFile.Cursor

/-! A cursor that may also go back: a run of negative length moves it towards the start of the bytes
and beyond. A place before the start counts from the end. -/

namespace ClassAtlas

structure FreeCursor where
  bytes : List UInt8
  offset : Int

/-- A fault and the offset where it shows, or a number that begins before the start and does not lie
within the bytes. -/
inductive FreeError where
  | layout (fault : LayoutFault) (offset : Int)
  | outside

def FreeError.message : FreeError → String
  | layout fault offset => s!"{fault.message} (at offset {offset})"
  | outside => "the number does not lie within the bytes"

/-- A read that leaves the cursor where it got to, also when it fails. -/
abbrev FreeRead := ExceptT FreeError (StateM FreeCursor)

namespace FreeCursor

def ofBytes (bytes : List UInt8) : FreeCursor :=
  ⟨bytes, 0⟩

def remaining (c : FreeCursor) : Int :=
  c.bytes.length - c.offset

/-- Where a place lies from the start on; one that is too far before the start lies there. -/
def index (c : FreeCursor) (place : Int) : Nat :=
  (if place < 0 then place + c.bytes.length else place).toNat

/-- Goes on by `size`, if as much is left, and gives the place before. -/
def advance (size : Int) (what : String) : FreeRead Int := do
  let c ← get
  if c.remaining < size then
    throw (.layout (.truncated what size.toNat (size - c.remaining).toNat) c.offset)
  set { c with offset := c.offset + size }
  return c.offset

/-- The bytes of a run. -/
def take (size : Int) (what : String) : FreeRead (List UInt8) := do
  let start ← advance size what
  let c ← get
  let front := c.index start
  return (c.bytes.drop front).take (c.index (start + size) - front)

/-- A number of `size` bytes, which `x` reads. -/
def number {α : Type} (size : Nat) (what : String) (x : Read α) : FreeRead α := do
  let start ← advance size what
  let c ← get
  if start < 0 && (0 < start + size || start + c.bytes.length < 0) then throw .outside
  match x.run (c.bytes.drop (c.index start)) with
  | .ok a => return a
  | .error e => throw (.layout e.fault e.offset)

def u8 (what : String) : FreeRead UInt8 :=
  number 1 what (Read.u8 what)

def u16 (what : String) : FreeRead UInt16 :=
  number 2 what (Read.u16 what)

def u32 (what : String) : FreeRead UInt32 :=
  number 4 what (Read.u32 what)

/-- Fails if bytes are left. -/
def atEnd (what : String) : FreeRead Unit := do
  let c ← get
  if c.remaining ≠ 0 then throw (.layout (.trailing c.remaining.toNat what) c.offset)

end FreeCursor

end ClassAtlas
