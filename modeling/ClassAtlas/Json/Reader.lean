import ClassAtlas.Json.Basic
import ClassAtlas.Text.Numeral

/-! JSON texts read back into values. Beside the numbers of JSON there are those that only the
writer of a `Double` has: infinities, and what is no number. -/

namespace ClassAtlas.Json

/-- Reads from the front of a text. -/
abbrev Scan := StateT (List Char) Option

namespace Scan

def isSpace (c : Char) : Bool :=
  c = ' ' || c = '\t' || c = '\r' || c = '\n'

def skipSpace : Scan Unit
  | cs => some ((), cs.dropWhile isSpace)

def word (w : List Char) : Scan Unit
  | cs => if w.isPrefixOf cs then some ((), cs.drop w.length) else none

/-- Whether a character comes next; it is passed over then. -/
def skips (c : Char) : Scan Bool
  | [] => some (false, [])
  | d :: cs => if d = c then some (true, cs) else some (false, d :: cs)

/-- What a string holds so far, backwards, and a high surrogate that waits for its partner. -/
structure Draft where
  done : List Char
  high : Option UInt16

/-- A surrogate that is still alone stays so. -/
def Draft.settle (d : Draft) : List Char :=
  match d.high with
  | none => d.done
  | some high => Utf16.single high :: d.done

def Draft.add (d : Draft) (c : Char) : Draft :=
  ⟨c :: d.settle, none⟩

def Draft.addUnit (d : Draft) (u : UInt16) : Draft :=
  match d.high with
  | some high =>
    if Utf16.isLow u then ⟨Utf16.pair high u :: d.done, none⟩
    else if Utf16.isHigh u then ⟨d.settle, some u⟩
    else d.add (Utf16.single u)
  | none => if Utf16.isHigh u then ⟨d.done, some u⟩ else d.add (Utf16.single u)

/-- What a character after a backslash stands for. -/
def escaped? (c : Char) : Option Char :=
  if c = '"' || c = '\\' || c = '/' then some c
  else if c = 'b' then some (Char.ofNat 0x8)
  else if c = 'f' then some (Char.ofNat 0xC)
  else if c = 'n' then some '\n'
  else if c = 'r' then some '\r'
  else if c = 't' then some '\t'
  else none

/-- The text of a string whose opening quote has been read. -/
def string : Draft → Scan String
  | _, [] => none
  | draft, c :: cs =>
    if c = '"' then some (String.ofList draft.settle.reverse, cs)
    else if c = '\\' then
      match cs with
      | 'u' :: d₁ :: d₂ :: d₃ :: d₄ :: rest =>
        match Numeral.hex? [d₁, d₂, d₃, d₄] with
        | some u => string (draft.addUnit (UInt16.ofNat u)) rest
        | none => none
      | e :: rest =>
        match escaped? e with
        | some c => string (draft.add c) rest
        | none => none
      | [] => none
    else if c.toNat < 0x20 then none
    else string (draft.add c) cs

def digits : Scan (List Char)
  | cs => some (cs.takeWhile Char.isDigit, cs.dropWhile Char.isDigit)

/-- Digits without a leading zero. -/
def whole : Scan (List Char) := do
  if ← skips '0' then return ['0']
  match ← digits with
  | [] => failure
  | ds => return ds

/-- The digits behind a point; there are none without a point. -/
def fraction : Scan (List Char)
  | '.' :: c :: cs => if c.isDigit then digits (c :: cs) else some ([], '.' :: c :: cs)
  | cs => some ([], cs)

/-- The sign of an exponent, and what is left. -/
def exponentSign : List Char → Bool × List Char
  | '-' :: cs => (true, cs)
  | '+' :: cs => (false, cs)
  | cs => (false, cs)

/-- The power of ten behind an `e`, if there is one. -/
def exponent : Scan (Option Int)
  | [] => some (none, [])
  | c :: cs =>
    let (negative, ds) := exponentSign cs
    if (c = 'e' || c = 'E') && (ds.head?.elim false Char.isDigit) then
      let power := Numeral.signed negative (ds.takeWhile Char.isDigit)
      some (some power, ds.dropWhile Char.isDigit)
    else some (none, c :: cs)

/-- A number with a fraction or an exponent is a floating-point one. -/
def number : Scan Json := do
  let negative ← skips '-'
  if negative && (← get).head? = some 'I' then
    word "Infinity".toList
    return float (.infinite true)
  let front ← whole
  let back ← fraction
  match back, ← exponent with
  | [], none => return int (Numeral.signed negative front)
  | back, power =>
    let digits := Numeral.decimal (front ++ back)
    return float (.ofDecimal negative digits (power.getD 0 - back.length))

/-- A value that holds no others. -/
def scalar : Scan Json := do
  match (← get).head? with
  | some '"' =>
    let _ ← skips '"'
    return str (← string ⟨[], none⟩)
  | some 'n' => word "null".toList; return null
  | some 't' => word "true".toList; return bool true
  | some 'f' => word "false".toList; return bool false
  | some 'N' => word "NaN".toList; return float .nan
  | some 'I' => word "Infinity".toList; return float (.infinite false)
  | _ => number

/-- Of several fields of one name the last value counts, in the place of the first. The fields are
backwards. -/
def addField (name : String) (value : Json) (fields : List (String × Json)) :
    List (String × Json) :=
  if (fields.lookup name).isSome then
    fields.map fun e => if e.1 = name then (name, value) else e
  else (name, value) :: fields

mutual

/-- Nothing that is read takes more than two steps for each of its characters. -/
def value : (fuel : Nat) → Scan Json
  | 0 => failure
  | fuel + 1 => do
    skipSpace
    if ← skips '[' then
      skipSpace
      if ← skips ']' then return arr []
      items fuel []
    else if ← skips '\x7b' then
      skipSpace
      if ← skips '\x7d' then return obj []
      fields fuel []
    else scalar

/-- The items of an array; `done` holds those before, backwards. -/
def items : (fuel : Nat) → (done : List Json) → Scan Json
  | 0, _ => failure
  | fuel + 1, done => do
    let done := (← value fuel) :: done
    skipSpace
    if ← skips ',' then items fuel done
    else
      word [']']
      return arr done.reverse

/-- The fields of an object; `done` holds those before, backwards. -/
def fields : (fuel : Nat) → (done : List (String × Json)) → Scan Json
  | 0, _ => failure
  | fuel + 1, done => do
    skipSpace
    word ['"']
    let name ← string ⟨[], none⟩
    skipSpace
    word [':']
    let done := addField name (← value fuel) done
    skipSpace
    if ← skips ',' then fields fuel done
    else
      word ['\x7d']
      return obj done.reverse

end

/-- A value and nothing else but blanks. -/
def document : Scan Json := do
  let v ← value (2 * (← get).length + 2)
  skipSpace
  match ← get with
  | [] => return v
  | _ => failure

end Scan

/-- The value a text stands for, if it stands for one. -/
def ofText? (text : String) : Option Json :=
  (Scan.document.run text.toList).map Prod.fst

end ClassAtlas.Json
