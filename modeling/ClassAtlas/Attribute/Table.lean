import ClassAtlas.Attribute.Layout

/-! Attributes of one owner, decoded when they are asked for. -/

namespace ClassAtlas

namespace AttributeTable

def nameOf (t : AttributeTable) (raw : RawAttribute) : Except DecodeError String :=
  (t.pool.text raw.nameIndex.toNat).mapError .reference

def decode (t : AttributeTable) (raw : RawAttribute) : Except DecodeError Attribute := do
  Attribute.decode t.pool (← t.nameOf raw) raw.payload

def names (t : AttributeTable) : Except DecodeError (List String) :=
  t.raw.mapM t.nameOf

/-- Every attribute, decoded in order. -/
def decodeAll (t : AttributeTable) : Except DecodeError (List Attribute) :=
  t.raw.mapM t.decode

/-- The first of the stored attributes with the given name; the others are not decoded. -/
def findIn (t : AttributeTable) (name : String) :
    List RawAttribute → Except DecodeError (Option Attribute)
  | [] => .ok none
  | raw :: rest => do
    if (← t.nameOf raw) = name then return some (← Attribute.decode t.pool name raw.payload)
    else t.findIn name rest

def find? (t : AttributeTable) (name : String) : Except DecodeError (Option Attribute) :=
  t.findIn name t.raw

end AttributeTable

/-- The line table among the attributes of a method body. -/
def Code.lineNumbers (c : Code) : Except DecodeError (Option LineTable) := do
  match ← c.table.find? "LineNumberTable" with
  | some ⟨_, .lineNumbers table⟩ => return some table
  | _ => return none

end ClassAtlas
