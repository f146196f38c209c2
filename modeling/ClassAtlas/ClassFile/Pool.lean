/-! Constant pools. Slots are numbered from one; a long or double takes two slots, of which the
second is empty. -/

namespace ClassAtlas

/-- The kinds of pool entries. -/
inductive EntryKind where
  | utf8 | integer | float | long | double | classRef | string | fieldRef | methodRef
  | interfaceMethodRef | nameAndType | methodHandle | methodType | invokeDynamic
  deriving DecidableEq, Repr

namespace EntryKind

def all : List EntryKind :=
  [utf8, integer, float, long, double, classRef, string, fieldRef, methodRef, interfaceMethodRef,
    nameAndType, methodHandle, methodType, invokeDynamic]

def tag : EntryKind → UInt8
  | utf8 => 1
  | integer => 3
  | float => 4
  | long => 5
  | double => 6
  | classRef => 7
  | string => 8
  | fieldRef => 9
  | methodRef => 10
  | interfaceMethodRef => 11
  | nameAndType => 12
  | methodHandle => 15
  | methodType => 16
  | invokeDynamic => 18

def ofTag? (tag : UInt8) : Option EntryKind :=
  all.find? fun k => k.tag == tag

def name : EntryKind → String
  | utf8 => "Utf8"
  | integer => "Integer"
  | float => "Float"
  | long => "Long"
  | double => "Double"
  | classRef => "Class"
  | string => "String"
  | fieldRef => "FieldRef"
  | methodRef => "MethodRef"
  | interfaceMethodRef => "InterfaceMethodRef"
  | nameAndType => "NameAndType"
  | methodHandle => "MethodHandle"
  | methodType => "MethodType"
  | invokeDynamic => "InvokeDynamic"

def ofName? (name : String) : Option EntryKind :=
  all.find? fun k => k.name == name

/-- The name messages use. -/
def label (k : EntryKind) : String :=
  k.name ++ "Info"

/-- Number of slots an entry takes. -/
def slots : EntryKind → Nat
  | long => 2
  | double => 2
  | _ => 1

end EntryKind

/-- A pool entry. Floats and doubles are kept as bits, so that they compare as stored. An index may
be any number; one that is no index of the pool leads nowhere. -/
inductive Entry where
  | utf8 (raw : List UInt8) (text : String)
  | integer (value : Int)
  | float (bits : UInt32)
  | long (value : Int)
  | double (bits : UInt64)
  | classRef (nameIndex : Int)
  | string (stringIndex : Int)
  | fieldRef (classIndex nameAndTypeIndex : Int)
  | methodRef (classIndex nameAndTypeIndex : Int)
  | interfaceMethodRef (classIndex nameAndTypeIndex : Int)
  | nameAndType (nameIndex descriptorIndex : Int)
  | methodHandle (referenceKind referenceIndex : Int)
  | methodType (descriptorIndex : Int)
  | invokeDynamic (bootstrapIndex nameAndTypeIndex : Int)
  deriving DecidableEq

namespace Entry

def kind : Entry → EntryKind
  | utf8 .. => .utf8
  | integer .. => .integer
  | float .. => .float
  | long .. => .long
  | double .. => .double
  | classRef .. => .classRef
  | string .. => .string
  | fieldRef .. => .fieldRef
  | methodRef .. => .methodRef
  | interfaceMethodRef .. => .interfaceMethodRef
  | nameAndType .. => .nameAndType
  | methodHandle .. => .methodHandle
  | methodType .. => .methodType
  | invokeDynamic .. => .invokeDynamic

def slots (e : Entry) : Nat :=
  e.kind.slots

end Entry

/-- A pool index that does not lead to what is asked for. -/
inductive ReferenceError where
  | wrongKind (index : Int) (expected : EntryKind) (found : Option EntryKind)
  | namelessClass (index nameIndex : Int)
  deriving DecidableEq, Repr

namespace ReferenceError

def index : ReferenceError → Int
  | wrongKind index .. => index
  | namelessClass index _ => index

def expected : ReferenceError → String
  | wrongKind _ expected _ => expected.label
  | namelessClass .. => "Class -> Utf8"

def detail : ReferenceError → String
  | wrongKind _ _ none => "found nothing"
  | wrongKind _ _ (some kind) => "found " ++ kind.label
  | namelessClass _ nameIndex => s!"name_index {nameIndex} is not Utf8"

def message (e : ReferenceError) : String :=
  s!"constant pool index {e.index} does not resolve to {e.expected}: {e.detail}"

end ReferenceError

/-- The slots of a pool; the one at position `i` has index `i + 1`. -/
structure Pool where
  slots : List (Option Entry)
  deriving DecidableEq

namespace Pool

def size (p : Pool) : Nat :=
  p.slots.length

/-- The entry at an index; `none` outside the pool and at an empty slot. -/
def get? (p : Pool) (index : Int) : Option Entry :=
  if index < 1 then none else (p.slots[(index - 1).toNat]?).join

/-- Used slots with their indices, when the first of the slots has index `start`. -/
def usedFrom : (start : Nat) → List (Option Entry) → List (Nat × Entry)
  | _, [] => []
  | start, none :: slots => usedFrom (start + 1) slots
  | start, some e :: slots => (start, e) :: usedFrom (start + 1) slots

/-- Every used slot with its index, in increasing order. -/
def toList (p : Pool) : List (Nat × Entry) :=
  usedFrom 1 p.slots

/-- A text entry's text, or that of the text entry a string entry leads to. -/
def string? (p : Pool) (index : Int) : Option String :=
  match p.get? index with
  | some (.utf8 _ text) => some text
  | some (.string target) =>
    match p.get? target with
    | some (.utf8 _ text) => some text
    | _ => none
  | _ => none

/-- The entry at an index, which has to be of the given kind. -/
def require (p : Pool) (index : Int) (kind : EntryKind) : Except ReferenceError Entry :=
  match p.get? index with
  | none => .error (.wrongKind index kind none)
  | some e => if e.kind = kind then .ok e else .error (.wrongKind index kind (some e.kind))

/-- The text of a text entry. -/
def text (p : Pool) (index : Int) : Except ReferenceError String :=
  match p.get? index with
  | some (.utf8 _ text) => .ok text
  | found => .error (.wrongKind index .utf8 (found.map Entry.kind))

/-- The name a class entry leads to. -/
def className (p : Pool) (index : Int) : Except ReferenceError String :=
  match p.get? index with
  | some (.classRef nameIndex) =>
    match p.get? nameIndex with
    | some (.utf8 _ name) => .ok name
    | _ => .error (.namelessClass index nameIndex)
  | found => .error (.wrongKind index .classRef (found.map Entry.kind))

def display (p : Pool) : String :=
  s!"ConstantPool({p.size} slots)"

end Pool

end ClassAtlas
