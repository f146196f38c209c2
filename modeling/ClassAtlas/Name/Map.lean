import ClassAtlas.Name.Basic

/-! Maps keyed by names, in order of first insertion. -/

namespace ClassAtlas

structure NameMap (α : Type) where
  entries : List (NameLike × α)

namespace NameMap

variable {α : Type}

def empty : NameMap α :=
  ⟨[]⟩

def size (m : NameMap α) : Nat :=
  m.entries.length

def keys (m : NameMap α) : List NameLike :=
  m.entries.map Prod.fst

def get? (m : NameMap α) (name : NameLike) : Option α :=
  (m.entries.find? fun e => e.1 == name).map Prod.snd

def contains (m : NameMap α) (name : NameLike) : Bool :=
  m.entries.any fun e => e.1 == name

/-- An equal key keeps its place and its spelling. -/
def put (m : NameMap α) (name : NameLike) (value : α) : NameMap α :=
  if m.contains name then
    ⟨m.entries.map fun e => if e.1 == name then (e.1, value) else e⟩
  else ⟨m.entries ++ [(name, value)]⟩

def erase (m : NameMap α) (name : NameLike) : NameMap α :=
  ⟨m.entries.filter fun e => !(e.1 == name)⟩

end NameMap

end ClassAtlas
