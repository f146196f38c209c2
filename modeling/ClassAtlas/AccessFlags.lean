/-! Access flags. What a bit means depends on what carries it. -/

namespace ClassAtlas

structure AccessFlags where
  bits : UInt16
  deriving DecidableEq, Repr

/-- What carries the flags. -/
inductive FlagOwner where
  | ofClass | ofField | ofMethod
  deriving DecidableEq, Repr

namespace AccessFlags

/-- The low sixteen bits of a number in two's complement. -/
def ofInt (n : Int) : AccessFlags :=
  ⟨UInt16.ofNat (n % 0x10000).toNat⟩

def has (f : AccessFlags) (mask : UInt16) : Bool :=
  f.bits &&& mask != 0

def keywords : FlagOwner → List (UInt16 × String)
  | .ofClass =>
    [(0x0001, "public"), (0x0010, "final"), (0x0020, "super"), (0x0200, "interface"),
      (0x0400, "abstract"), (0x1000, "synthetic"), (0x2000, "annotation"), (0x4000, "enum"),
      (0x8000, "module")]
  | .ofField =>
    [(0x0001, "public"), (0x0002, "private"), (0x0004, "protected"), (0x0008, "static"),
      (0x0010, "final"), (0x0040, "volatile"), (0x0080, "transient"), (0x1000, "synthetic"),
      (0x4000, "enum")]
  | .ofMethod =>
    [(0x0001, "public"), (0x0002, "private"), (0x0004, "protected"), (0x0008, "static"),
      (0x0010, "final"), (0x0020, "synchronized"), (0x0040, "bridge"), (0x0080, "varargs"),
      (0x0100, "native"), (0x0400, "abstract"), (0x0800, "strict"), (0x1000, "synthetic")]

/-- Names of the bits, lowest first, whatever carries them. -/
def bitNames : List (UInt16 × String) :=
  [(0x0001, "PUBLIC"), (0x0002, "PRIVATE"), (0x0004, "PROTECTED"), (0x0008, "STATIC"),
    (0x0010, "FINAL"), (0x0020, "SUPER"), (0x0040, "VOLATILE"), (0x0080, "TRANSIENT"),
    (0x0100, "NATIVE"), (0x0200, "INTERFACE"), (0x0400, "ABSTRACT"), (0x0800, "STRICT"),
    (0x1000, "SYNTHETIC"), (0x2000, "ANNOTATION"), (0x4000, "ENUM"), (0x8000, "MODULE")]

def select (f : AccessFlags) (table : List (UInt16 × String)) : List String :=
  (table.filter fun row => f.has row.1).map Prod.snd

/-- The modifiers as source code spells them. -/
def modifiers (f : AccessFlags) (owner : FlagOwner) : List String :=
  f.select (keywords owner)

def members (f : AccessFlags) : List String :=
  f.select bitNames

end AccessFlags

end ClassAtlas
