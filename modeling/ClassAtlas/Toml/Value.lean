import ClassAtlas.Toml.Number
import ClassAtlas.Toml.Table
import ClassAtlas.Toml.Text

/-! Keys and values of TOML, with arrays and tables that are written in place. -/

namespace ClassAtlas.Toml

structure Key where
  head : String
  tail : List String

namespace Parse

def isBareChar (c : Char) : Bool :=
  c.isAlphanum || c = '-' || c = '_'

def skipBlanks : Parse Unit
  | cs => .ok ((), cs.dropWhile isBlankChar)

/-- A comment goes up to the end of its line and holds no control characters. -/
def comment : Parse Unit := do
  char '#'
  let body ← takeWhile (· ≠ '\n')
  if body.any isControl then failure

def textBy (read : List Char → Cut) : Parse String
  | cs =>
    match read cs with
    | some (text, rest) => .ok (String.ofList text, rest)
    | none => .error .malformed

/-- A part of a key: bare or between quotes. -/
def keyPart : Parse String := do
  match ← takeWhile isBareChar with
  | [] => textBy oneLine
  | cs => return String.ofList cs

/-- Further parts of a key, each behind a dot. -/
def keyParts : (fuel : Nat) → Parse (List String)
  | 0 => failure
  | fuel + 1 => do
    skipBlanks
    match ← attempt (char '.') with
    | none => return []
    | some () =>
      skipBlanks
      let part ← keyPart
      return part :: (← keyParts fuel)

def key : Parse Key := do
  let head ← keyPart
  return ⟨head, ← keyParts ((← get).length + 1)⟩

/-- Blanks, line ends and comments between the items of an array. -/
def skipLines : (fuel : Nat) → Parse Unit
  | 0 => failure
  | fuel + 1 => do
    let _ ← takeWhile fun c => isBlankChar c || c = '\n'
    if (← get).head? = some '#' then
      comment
      skipLines fuel

def skipSpace : Parse Unit := do
  skipLines ((← get).length + 1)

/-- A value on its own: no array and no table. -/
def scalar : Parse Toml := do
  match (← get).head? with
  | none => failure
  | some c =>
    if c = quote || c = apostrophe then return .str (← textBy text)
    else
      (do word ['t', 'r', 'u', 'e']; return .bool true) <|>
        (do word ['f', 'a', 'l', 's', 'e']; return .bool false) <|> moment <|> number

/-- What is left of the room for nested values once a value takes some of it. -/
def enter (room cost : Nat) : Parse Nat :=
  if room < cost then throw .tooDeep else return room - cost

mutual

/-- Every item of a nested value takes a character, so twice the length of the text is enough
fuel. An array takes two parts of the room for nested values, a table takes three. -/
def value (room : Nat) : (fuel : Nat) → Parse Toml
  | 0 => failure
  | fuel + 1 => do
    match (← get).head? with
    | some '[' =>
      char '['
      return .arr (← items (← enter room 2) fuel)
    | some '\x7b' =>
      char '\x7b'
      let room ← enter room 3
      skipBlanks
      match ← attempt (char '\x7d') with
      | some () => return .table []
      | none => return .table (Entries.finish (← entries room fuel []))
    | _ => scalar

/-- The items of an array; a comma may follow the last one. -/
def items (room : Nat) : (fuel : Nat) → Parse (List Toml)
  | 0 => failure
  | fuel + 1 => do
    skipSpace
    match ← attempt (char ']') with
    | some () => return []
    | none =>
      let v ← value room fuel
      skipSpace
      match ← attempt (char ',') with
      | some () => return v :: (← items room fuel)
      | none =>
        char ']'
        return [v]

/-- The entries of a table on one line; no comma may follow the last one. -/
def entries (room : Nat) : (fuel : Nat) → Entries → Parse Entries
  | 0, _ => failure
  | fuel + 1, es => do
    let k ← key
    char '='
    skipBlanks
    let v ← value room fuel
    match Entries.assign 0 v k.head k.tail es with
    | none => failure
    | some es =>
      skipBlanks
      match ← attempt (char ',') with
      | some () =>
        skipBlanks
        entries room fuel es
      | none =>
        char '\x7d'
        return es

end

/-- The room for the values nested in a value. -/
def nestingRoom : Nat := 978

/-- A key and its value. -/
def pair : Parse (Key × Toml) := do
  let k ← key
  char '='
  skipBlanks
  return (k, ← value nestingRoom (2 * (← get).length + 2))

end Parse

end ClassAtlas.Toml
