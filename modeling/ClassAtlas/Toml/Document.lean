import ClassAtlas.Toml.Value

/-! Whole TOML texts: lines with a key and its value, and headers that say which table the lines
after them fill. -/

namespace ClassAtlas.Toml

/-- Everything read so far, where the next keys belong, and the number of headers read. -/
structure Draft where
  entries : Entries
  place : List String
  sections : Nat

namespace Parse

def header (d : Draft) (opens : String → Entries → Option Entries) (k : Key) : Option Draft :=
  let place := k.head :: k.tail
  (d.entries.change (opens (place.getLast?.getD "")) place.dropLast).map fun entries =>
    ⟨entries, place, d.sections + 1⟩

/-- A header between single or double brackets. -/
def readHeader (d : Draft) : Parse Draft := do
  char '['
  let double ← attempt (char '[')
  skipBlanks
  let k ← key
  word (if double.isSome then [']', ']'] else [']'])
  match header d (if double.isSome then Entries.append else Entries.declare) k with
  | some d => return d
  | none => failure

def readPair (d : Draft) : Parse Draft := do
  let (k, v) ← pair
  match d.entries.change (Entries.assign d.sections v k.head k.tail) d.place with
  | some entries => return { d with entries }
  | none => failure

/-- What a line says, if it says anything. -/
def statement (d : Draft) : Parse Draft := do
  match (← get).head? with
  | none => return d
  | some c =>
    if c = '#' || c = '\n' then return d
    else if c = '[' then readHeader d
    else readPair d

/-- Reads line by line up to the end. -/
def lines : (fuel : Nat) → Draft → Parse Draft
  | 0, _ => failure
  | fuel + 1, d => do
    skipBlanks
    let d ← statement d
    skipBlanks
    if (← get).head? = some '#' then comment
    match ← get with
    | [] => return d
    | _ =>
      char '\n'
      lines fuel d

end Parse

/-- Line ends of two characters count as one. -/
def unifyLineEnds : List Char → List Char
  | '\r' :: '\n' :: cs => '\n' :: unifyLineEnds cs
  | c :: cs => c :: unifyLineEnds cs
  | [] => []

/-- The entries of the table that a text describes. -/
def ofText (text : String) : Except Fault (List (String × Toml)) :=
  let cs := unifyLineEnds text.toList
  ((Parse.lines (cs.length + 1) ⟨[], [], 0⟩).run cs).map fun (d, _) => Entries.finish d.entries

end ClassAtlas.Toml
