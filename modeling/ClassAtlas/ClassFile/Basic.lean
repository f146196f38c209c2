import ClassAtlas.ClassFile.Pool

/-! Class files as stored: indices are not followed and attributes are not decoded. -/

namespace ClassAtlas

/-- A name index and an opaque payload. -/
structure RawAttribute where
  nameIndex : UInt16
  payload : List UInt8
  deriving DecidableEq

/-- A field or method as stored. -/
structure RawMember where
  accessFlags : UInt16
  nameIndex : UInt16
  descriptorIndex : UInt16
  attributes : List RawAttribute
  deriving DecidableEq

structure ClassFile where
  minorVersion : UInt16
  majorVersion : UInt16
  pool : Pool
  accessFlags : UInt16
  thisClass : UInt16
  superClass : UInt16
  interfaces : List UInt16
  fields : List RawMember
  methods : List RawMember
  attributes : List RawAttribute
  deriving DecidableEq

namespace ClassFile

/-- The four bytes every class file starts with. -/
def magic : UInt32 := 0xCAFEBABE

/-- The count in front of the pool, one more than its slots. -/
def poolCount (c : ClassFile) : Nat :=
  c.pool.size + 1

end ClassFile

end ClassAtlas
