import ClassAtlas.Attribute.Basic
import ClassAtlas.ClassFile.DecodeError

/-! The layouts of attributes. The name of an attribute says which layout it has; under an unknown
name the bytes are kept. -/

namespace ClassAtlas

namespace Attribute

open Read

/-- A two-byte index and nothing after it. -/
def readIndex (what owner : String) : Read UInt16 := do
  let index ← u16 what
  atEnd owner
  return index

/-- The text an index of the named attribute leads to. -/
def textAt (pool : Pool) (name : String) (index : UInt16) : Except DecodeError String :=
  match pool.string? index.toNat with
  | some text => .ok text
  | none => .error (.unresolved name index "Utf8")

def layout {α : Type} (x : Read α) (bytes : List UInt8) : Except DecodeError α :=
  (x.run bytes).mapError .layout

def decodeSourceFile (pool : Pool) (bytes : List UInt8) : Except DecodeError Payload := do
  let index ← layout (readIndex "sourcefile_index" "SourceFile attribute") bytes
  return .sourceFile (← textAt pool "SourceFile" index)

def decodeSignature (pool : Pool) (bytes : List UInt8) : Except DecodeError Payload := do
  let index ← layout (readIndex "signature_index" "Signature attribute") bytes
  let text ← textAt pool "Signature" index
  return .signature (← (Signature.ofDescriptor text).mapError .grammar)

def readLine : Read LineEntry := do
  let start ← u16 "start_pc"
  return ⟨start.toNat, (← u16 "line_number").toNat⟩

def readLineTable : Read LineTable := do
  let entries ← counted "line_number_table_length" readLine
  atEnd "LineNumberTable attribute"
  return ⟨entries⟩

/-- An index of zero stands for every exception. -/
def catchType (pool : Pool) (index : UInt16) : Option (Option String) :=
  if index = 0 then some none
  else
    match pool.className index.toNat with
    | .ok name => some (some name)
    | .error _ => none

/-- Handler rows; the first index that leads to no class name ends the reading and is returned. -/
def readHandlers (pool : Pool) : (n : Nat) → (done : List Handler) →
    Read (Except UInt16 (List Handler))
  | 0, done => return .ok done.reverse
  | n + 1, done => do
    let startPc ← u16 "start_pc"
    let endPc ← u16 "end_pc"
    let handlerPc ← u16 "handler_pc"
    let index ← u16 "catch_type"
    match catchType pool index with
    | none => return .error index
    | some caught =>
      readHandlers pool n (⟨startPc.toNat, endPc.toNat, handlerPc.toNat, caught⟩ :: done)

/-- The attributes of a body. -/
def readNested : (n : Nat) → (done : List RawAttribute) → Read (List RawAttribute)
  | 0, done => return done.reverse
  | n + 1, done => do
    let nameIndex ← u16 "attribute_name_index"
    let size ← u32 "attribute_length"
    let payload ← bytes size.toNat "attribute info"
    readNested n (⟨nameIndex, payload⟩ :: done)

def readCode (pool : Pool) : Read (Except UInt16 Code) := do
  let maxStack ← u16 "max_stack"
  let maxLocals ← u16 "max_locals"
  let size ← u32 "code_length"
  let code ← bytes size.toNat "bytecode"
  let rows ← u16 "exception_table_length"
  match ← readHandlers pool rows.toNat [] with
  | .error index => return .error index
  | .ok handlers => do
    let count ← u16 "attributes_count"
    let raw ← readNested count.toNat []
    atEnd "Code attribute"
    return .ok ⟨maxStack, maxLocals, code, handlers, ⟨pool, raw⟩⟩

def decodeCode (pool : Pool) (bytes : List UInt8) : Except DecodeError Payload := do
  match ← layout (readCode pool) bytes with
  | .ok code => return .code code
  | .error index => throw (.unresolved "Code" index "Class -> Utf8")

/-- The payload of an attribute with the given name. -/
def decodePayload (pool : Pool) (name : String) (bytes : List UInt8) :
    Except DecodeError Payload :=
  if name = "SourceFile" then decodeSourceFile pool bytes
  else if name = "Signature" then decodeSignature pool bytes
  else if name = "Code" then decodeCode pool bytes
  else if name = "LineNumberTable" then do return .lineNumbers (← layout readLineTable bytes)
  else if name = "Deprecated" then do
    layout (atEnd "Deprecated attribute") bytes
    return .deprecated
  else .ok (.unknown bytes)

def decode (pool : Pool) (name : String) (bytes : List UInt8) : Except DecodeError Attribute :=
  match decodePayload pool name bytes with
  | .ok payload => .ok ⟨name, payload⟩
  | .error e => .error e

end Attribute

end ClassAtlas
