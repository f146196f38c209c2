import ClassAtlas.ClassFile.Basic
import ClassAtlas.ClassFile.Cursor
import ClassAtlas.Text.ModifiedUtf8

/-! Reading class files. -/

namespace ClassAtlas.ClassFile

open Read

/-- Magic, minor version and major version. -/
def readHeader : Read (UInt16 × UInt16) := do
  let found ← u32 "magic"
  if found = magic then
    let minor ← u16 "minor_version"
    let major ← u16 "major_version"
    return (minor, major)
  else failAt 0 (.badMagic found)

def readUtf8 : Read Entry := do
  let size ← u16 "utf8 length"
  let raw ← bytes size.toNat "utf8 bytes"
  return .utf8 raw (ModifiedUtf8.decode raw)

/-- Two indices, named by what they are. -/
def readPair (first second : String) (make : Int → Int → Entry) : Read Entry := do
  let a ← u16 first
  let b ← u16 second
  return make a.toNat b.toNat

/-- The part of an entry after its tag. -/
def readBody : EntryKind → Read Entry
  | .utf8 => readUtf8
  | .integer => do return .integer (← u32 "integer").toInt32.toInt
  | .float => do return .float (← u32 "float")
  | .long => do return .long (← u64 "long").toInt64.toInt
  | .double => do return .double (← u64 "double")
  | .classRef => do return .classRef (← u16 "class name_index").toNat
  | .string => do return .string (← u16 "string_index").toNat
  | .fieldRef => readPair "class_index" "name_and_type_index" .fieldRef
  | .methodRef => readPair "class_index" "name_and_type_index" .methodRef
  | .interfaceMethodRef => readPair "class_index" "name_and_type_index" .interfaceMethodRef
  | .nameAndType => readPair "name_index" "descriptor_index" .nameAndType
  | .methodHandle => do
    let kind ← u8 "reference_kind"
    return .methodHandle kind.toNat (← u16 "reference_index").toNat
  | .methodType => do return .methodType (← u16 "descriptor_index").toNat
  | .invokeDynamic => readPair "bootstrap_method_attr_index" "name_and_type_index" .invokeDynamic

def readEntry : Read Entry := do
  let start ← offset
  let tag ← u8 "constant pool tag"
  match EntryKind.ofTag? tag with
  | some kind => readBody kind
  | none => failAt start (.unknownTag tag)

/-- Fills the last `left` of `total` slots; `done` holds the slots before them, backwards. -/
def readSlots (total : Nat) : (left : Nat) → (done : List (Option Entry)) →
    Read (List (Option Entry))
  | 0, done => return done.reverse
  | left + 1, done => do
    let start ← offset
    let e ← readEntry
    if e.slots = 2 then
      match left with
      | 0 => failAt start (.noSecondSlot e.kind.name.toUpper total)
      | left + 1 => readSlots total left (none :: some e :: done)
    else readSlots total left (some e :: done)

/-- The count is one more than the slots; a count of zero stands for an empty pool as well. -/
def readPool : Read Pool := do
  let count ← u16 "constant_pool_count"
  return ⟨← readSlots (count.toNat - 1) (count.toNat - 1) []⟩

def readAttribute : Read RawAttribute := do
  let nameIndex ← u16 "attribute_name_index"
  let size ← u32 "attribute_length"
  return ⟨nameIndex, ← bytes size.toNat "attribute info"⟩

def readAttributes : Read (List RawAttribute) :=
  counted "attributes_count" readAttribute

def readMember (what : String) : Read RawMember := do
  let accessFlags ← u16 (what ++ " access_flags")
  let nameIndex ← u16 (what ++ " name_index")
  let descriptorIndex ← u16 (what ++ " descriptor_index")
  return ⟨accessFlags, nameIndex, descriptorIndex, ← readAttributes⟩

def readMembers (what : String) : Read (List RawMember) :=
  counted (what ++ "_count") (readMember what)

/-- A class file and nothing after it. -/
def read : Read ClassFile := do
  let (minor, major) ← readHeader
  let pool ← readPool
  let accessFlags ← u16 "access_flags"
  let thisClass ← u16 "this_class"
  let superClass ← u16 "super_class"
  let interfaces ← counted "interfaces_count" (u16 "interface index")
  let fields ← readMembers "field"
  let methods ← readMembers "method"
  let attributes ← readAttributes
  atEnd "class attributes"
  return ⟨minor, major, pool, accessFlags, thisClass, superClass, interfaces, fields, methods,
    attributes⟩

def ofBytes (bytes : List UInt8) : Except LayoutError ClassFile :=
  read.run bytes

/-- The pool and the index of the class itself; nothing after them is read. -/
def readSelf : Read (Pool × UInt16) := do
  let _ ← readHeader
  let pool ← readPool
  let _ ← u16 "access_flags"
  return (pool, ← u16 "this_class")

end ClassAtlas.ClassFile
