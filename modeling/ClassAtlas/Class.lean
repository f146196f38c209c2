import ClassAtlas.AccessFlags
import ClassAtlas.Attribute.Table
import ClassAtlas.ClassFile.Reader

/-! Classes with the names of their members and ancestors resolved. The class's own name and its
superclass are resolved at once, everything else when asked for. -/

namespace ClassAtlas

/-- A field or method and the pool of its class. -/
structure Member where
  raw : RawMember
  pool : Pool
  deriving DecidableEq

namespace Member

def name (m : Member) : Except DecodeError String :=
  (m.pool.text m.raw.nameIndex.toNat).mapError .reference

def descriptor (m : Member) : Except DecodeError String :=
  (m.pool.text m.raw.descriptorIndex.toNat).mapError .reference

/-- The type of a field. -/
def type (m : Member) : Except DecodeError Signature := do
  (Signature.ofDescriptor (← m.descriptor)).mapError .grammar

/-- Argument and result types of a method. -/
def methodType (m : Member) : Except DecodeError MethodType := do
  (MethodType.ofDescriptor (← m.descriptor)).mapError .grammar

def accessFlags (m : Member) : AccessFlags :=
  ⟨m.raw.accessFlags⟩

def table (m : Member) : AttributeTable :=
  ⟨m.pool, m.raw.attributes⟩

/-- The body of a method, absent for abstract and native ones. -/
def code (m : Member) : Except DecodeError (Option Code) := do
  match ← m.table.find? "Code" with
  | some ⟨_, .code code⟩ => return some code
  | _ => return none

/-- Name and descriptor after a label. -/
def display (label : String) (m : Member) : Except DecodeError String := do
  let name ← m.name
  return label ++ "(" ++ quoted name ++ ", " ++ quoted (← m.descriptor) ++ ")"

end Member

structure Class where
  raw : ClassFile
  thisName : String
  superName : Option String
  deriving DecidableEq

namespace Class

/-- The superclass index is zero only where there is none. -/
def ofFile (raw : ClassFile) : Except ReferenceError Class := do
  let thisName ← raw.pool.className raw.thisClass.toNat
  if raw.superClass = 0 then return ⟨raw, thisName, none⟩
  else return ⟨raw, thisName, some (← raw.pool.className raw.superClass.toNat)⟩

def ofBytes (bytes : List UInt8) : Except DecodeError Class :=
  match ClassFile.ofBytes bytes with
  | .error e => .error (.layout e)
  | .ok raw => (ofFile raw).mapError .reference

/-- The name the class declares for itself, read without the part of the file after it. -/
def nameOfBytes (bytes : List UInt8) : Except DecodeError String :=
  match ClassFile.readSelf.run bytes with
  | .error e => .error (.layout e)
  | .ok (pool, index) => (pool.className index.toNat).mapError .reference

def pool (c : Class) : Pool :=
  c.raw.pool

def qualifiedName (c : Class) : Except NameError QualifiedName :=
  QualifiedName.ofText c.thisName

def accessFlags (c : Class) : AccessFlags :=
  ⟨c.raw.accessFlags⟩

def isInterface (c : Class) : Bool :=
  c.accessFlags.has 0x0200

def table (c : Class) : AttributeTable :=
  ⟨c.pool, c.raw.attributes⟩

def sourceFile (c : Class) : Except DecodeError (Option String) := do
  match ← c.table.find? "SourceFile" with
  | some ⟨_, .sourceFile path⟩ => return some path
  | _ => return none

/-- The directly implemented interfaces, in declared order. -/
def interfaces (c : Class) : Except DecodeError (List String) :=
  (c.raw.interfaces.mapM fun index => c.pool.className index.toNat).mapError .reference

def fields (c : Class) : List Member :=
  c.raw.fields.map fun m => ⟨m, c.pool⟩

def methods (c : Class) : List Member :=
  c.raw.methods.map fun m => ⟨m, c.pool⟩

/-- Whether a member has the name and, where one is given, the descriptor. -/
def isCalled (name : String) (descriptor : Option String) (m : Member) :
    Except DecodeError Bool := do
  if (← m.name) = name then
    match descriptor with
    | none => return true
    | some d => return (← m.descriptor) = d
  else return false

def findMember (name : String) (descriptor : Option String) :
    List Member → Except DecodeError (Option Member)
  | [] => .ok none
  | m :: rest => do
    if ← isCalled name descriptor m then return some m else findMember name descriptor rest

def findMethod (c : Class) (name : String) (descriptor : Option String) :
    Except DecodeError (Option Member) :=
  findMember name descriptor c.methods

def findField (c : Class) (name : String) : Except DecodeError (Option Member) :=
  findMember name none c.fields

def display (c : Class) : String :=
  "JavaClass(" ++ quoted c.thisName ++ ")"

end Class

end ClassAtlas
