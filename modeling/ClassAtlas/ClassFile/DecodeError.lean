import ClassAtlas.ClassFile.Cursor
import ClassAtlas.ClassFile.Pool
import ClassAtlas.Descriptor

/-! What can be wrong with a part of a class file: its layout, an index, or a text that should be a
descriptor. -/

namespace ClassAtlas

/-- Why a part of a class file cannot be decoded. -/
inductive DecodeError where
  | layout (e : LayoutError)
  | reference (e : ReferenceError)
  | unresolved (owner : String) (index : UInt16) (expected : String)
  | grammar (e : GrammarError)
  deriving DecidableEq

def DecodeError.message : DecodeError → String
  | layout e => e.message
  | reference e => e.message
  | unresolved owner index expected =>
    s!"constant pool index {index.toNat} does not resolve to {expected}: " ++
      s!"while resolving attribute {owner}"
  | grammar e => e.message

/-- The name of a kind of decoding error in reports. -/
def DecodeError.kind : DecodeError → String
  | layout _ => "StructuralDecodeError"
  | reference _ => "ReferenceResolutionError"
  | unresolved .. => "AttributeResolutionError"
  | grammar _ => "SignatureGrammarError"

end ClassAtlas
