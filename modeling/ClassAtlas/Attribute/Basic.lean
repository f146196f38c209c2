import ClassAtlas.ClassFile.Basic
import ClassAtlas.LineTable
import ClassAtlas.Name.Basic
import ClassAtlas.Signature

/-! Attributes as they are stored and as they are after decoding. Those of a method body are left as
stored. -/

namespace ClassAtlas

/-- A row of a handler table. Without a class it catches everything. -/
structure Handler where
  startPc : Int
  endPc : Int
  handlerPc : Int
  catchType : Option String
  deriving DecidableEq

namespace Handler

def catchesAll (h : Handler) : Bool :=
  h.catchType.isNone

/-- The class that is caught, if its name is a qualified one. -/
def catchName (h : Handler) : Option (Except NameError QualifiedName) :=
  h.catchType.map QualifiedName.ofText

def covers (h : Handler) (pc : Int) : Bool :=
  h.startPc ≤ pc && pc < h.endPc

end Handler

/-- Attributes as stored, and the pool their indices lead into. -/
structure AttributeTable where
  pool : Pool
  raw : List RawAttribute
  deriving DecidableEq

/-- The body of a method. Its own attributes stay as stored. -/
structure Code where
  maxStack : UInt16
  maxLocals : UInt16
  bytes : List UInt8
  handlers : List Handler
  table : AttributeTable

namespace Code

/-- Equality looks at the stored attributes and not at the pool they lead into. -/
instance : BEq Code where
  beq a b := a.maxStack == b.maxStack && a.maxLocals == b.maxLocals && a.bytes == b.bytes &&
    a.handlers == b.handlers && a.table.raw == b.table.raw

def display (c : Code) : String :=
  s!"Code(max_stack={c.maxStack.toNat}, max_locals={c.maxLocals.toNat}, " ++
    s!"code_length={c.bytes.length}, handlers={c.handlers.length})"

end Code

inductive Payload where
  | sourceFile (path : String)
  | signature (type : Signature)
  | code (code : Code)
  | lineNumbers (table : LineTable)
  | deprecated
  | unknown (bytes : List UInt8)
  deriving BEq

/-- The attribute name with this layout, or `Unknown`. -/
def Payload.kind : Payload → String
  | sourceFile _ => "SourceFile"
  | signature _ => "Signature"
  | code _ => "Code"
  | lineNumbers _ => "LineNumberTable"
  | deprecated => "Deprecated"
  | unknown _ => "Unknown"

structure Attribute where
  name : String
  payload : Payload
  deriving BEq

end ClassAtlas
