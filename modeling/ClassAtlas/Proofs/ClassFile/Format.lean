import ClassAtlas.ClassFile.Basic
import ClassAtlas.Proofs.ClassFile.BigEndian
import ClassAtlas.Text.ModifiedUtf8

/-! The bytes of a class file, part by part, and which class files have bytes at all: numbers have
to fit their fields, lists their counts, and the second slot of a long or double has to be there. -/

namespace ClassAtlas

def IsIndex (n : Int) : Prop :=
  0 ≤ n ∧ n < 2 ^ 16

namespace Entry

/-- The part of an entry after its tag. -/
def body : Entry → List UInt8
  | utf8 raw _ => bigEndian 2 raw.length ++ raw
  | integer value => bigEndian 4 (value % 2 ^ 32).toNat
  | float bits => bigEndian 4 bits.toNat
  | long value => bigEndian 8 (value % 2 ^ 64).toNat
  | double bits => bigEndian 8 bits.toNat
  | classRef a | string a | methodType a => bigEndian 2 a.toNat
  | fieldRef a b | methodRef a b | interfaceMethodRef a b | nameAndType a b | invokeDynamic a b =>
    bigEndian 2 a.toNat ++ bigEndian 2 b.toNat
  | methodHandle kind index => bigEndian 1 kind.toNat ++ bigEndian 2 index.toNat

def bytes (e : Entry) : List UInt8 :=
  e.kind.tag :: e.body

/-- Every number fits its field, and a text is the decoding of its bytes. -/
def Storable : Entry → Prop
  | utf8 raw text => raw.length < 2 ^ 16 ∧ text = ModifiedUtf8.decode raw
  | integer value => -2 ^ 31 ≤ value ∧ value < 2 ^ 31
  | long value => -2 ^ 63 ≤ value ∧ value < 2 ^ 63
  | float _ | double _ => True
  | classRef a | string a | methodType a => IsIndex a
  | fieldRef a b | methodRef a b | interfaceMethodRef a b | nameAndType a b | invokeDynamic a b =>
    IsIndex a ∧ IsIndex b
  | methodHandle kind index => (0 ≤ kind ∧ kind < 2 ^ 8) ∧ IsIndex index

end Entry

namespace Pool

/-- Slots in which an empty one stands exactly behind each long and each double. -/
inductive Paired : List (Option Entry) → Prop
  | nil : Paired []
  | single {e : Entry} {slots : List (Option Entry)} :
    e.slots = 1 → Paired slots → Paired (some e :: slots)
  | double {e : Entry} {slots : List (Option Entry)} :
    e.slots = 2 → Paired slots → Paired (some e :: none :: slots)

def bytesOf (slots : List (Option Entry)) : List UInt8 :=
  slots.flatMap fun slot => (slot.map Entry.bytes).getD []

def EntriesStorable (slots : List (Option Entry)) : Prop :=
  ∀ e, some e ∈ slots → e.Storable

/-- The counts that may announce a pool: one more than its slots, and zero for no slots. -/
def Announced (p : Pool) (count : Nat) : Prop :=
  count = p.size + 1 ∨ p.slots = [] ∧ count = 0

structure Storable (p : Pool) : Prop where
  size_lt : p.size + 1 < 2 ^ 16
  paired : Paired p.slots
  entries : EntriesStorable p.slots

end Pool

namespace RawAttribute

def bytes (a : RawAttribute) : List UInt8 :=
  bigEndian 2 a.nameIndex.toNat ++ bigEndian 4 a.payload.length ++ a.payload

def Storable (a : RawAttribute) : Prop :=
  a.payload.length < 2 ^ 32

end RawAttribute

def countedBytes {α : Type} (write : α → List UInt8) (parts : List α) : List UInt8 :=
  bigEndian 2 parts.length ++ parts.flatMap write

def CountedStorable {α : Type} (P : α → Prop) (parts : List α) : Prop :=
  parts.length < 2 ^ 16 ∧ ∀ a ∈ parts, P a

namespace RawMember

def bytes (m : RawMember) : List UInt8 :=
  bigEndian 2 m.accessFlags.toNat ++ bigEndian 2 m.nameIndex.toNat ++
    bigEndian 2 m.descriptorIndex.toNat ++ countedBytes RawAttribute.bytes m.attributes

def Storable (m : RawMember) : Prop :=
  CountedStorable RawAttribute.Storable m.attributes

end RawMember

namespace ClassFile

/-- The bytes of a class file whose pool is announced by `count`. -/
def bytes (count : Nat) (c : ClassFile) : List UInt8 :=
  bigEndian 4 magic.toNat ++ bigEndian 2 c.minorVersion.toNat ++
    bigEndian 2 c.majorVersion.toNat ++ bigEndian 2 count ++ Pool.bytesOf c.pool.slots ++
    bigEndian 2 c.accessFlags.toNat ++ bigEndian 2 c.thisClass.toNat ++
    bigEndian 2 c.superClass.toNat ++
    countedBytes (fun i : UInt16 => bigEndian 2 i.toNat) c.interfaces ++
    countedBytes RawMember.bytes c.fields ++ countedBytes RawMember.bytes c.methods ++
    countedBytes RawAttribute.bytes c.attributes

/-- Every part fits, so that some bytes are the bytes of the class file. -/
structure Storable (c : ClassFile) : Prop where
  pool : c.pool.Storable
  interfaces : c.interfaces.length < 2 ^ 16
  fields : CountedStorable RawMember.Storable c.fields
  methods : CountedStorable RawMember.Storable c.methods
  attributes : CountedStorable RawAttribute.Storable c.attributes

end ClassFile

end ClassAtlas
