import ClassAtlas.Number.Double
import ClassAtlas.Text.Hex
import ClassAtlas.Text.Utf16

/-! JSON values with their fields in order, and their text on one line or indented. -/

namespace ClassAtlas

inductive Json where
  | null
  | bool (value : Bool)
  | int (value : Int)
  | float (value : Double)
  | str (value : String)
  | arr (items : List Json)
  | obj (fields : List (String × Json))
  deriving Inhabited

namespace Json

/-- How a text is laid out. With `indent` every item has a line of its own, deeper by that text;
with `ascii` all other characters are escaped. -/
structure Layout where
  indent : Option String
  ascii : Bool

/-- Spaces to indent by; a negative number counts as none. -/
def spaces (n : Int) : String :=
  String.ofList (List.replicate n.toNat ' ')

def escapeUnit (u : UInt16) : List Char :=
  '\\' :: 'u' :: Hex.digits 'a' 4 u.toNat

def escapeChar (ascii : Bool) (c : Char) : List Char :=
  if c == '"' || c == '\\' then ['\\', c]
  else if c == '\n' then ['\\', 'n']
  else if c == '\r' then ['\\', 'r']
  else if c == '\t' then ['\\', 't']
  else if c.toNat = 0xC then ['\\', 'f']
  else if c.toNat = 0x8 then ['\\', 'b']
  else if c.toNat < 0x20 || (ascii && 0x7F ≤ c.toNat) then
    (Utf16.ofPoint c.toNat).flatMap escapeUnit
  else [c]

def string (ascii : Bool) (s : String) : String :=
  String.ofList ('"' :: (s.toList.flatMap (escapeChar ascii) ++ ['"']))

def number (x : Double) : String :=
  match x with
  | .nan => "NaN"
  | .infinite negative => if negative then "-Infinity" else "Infinity"
  | x => x.toText

/-- A line break and the indentation of a level, if there are lines. -/
def Layout.newline (l : Layout) (level : Nat) : String :=
  match l.indent with
  | none => ""
  | some unit => "\n" ++ String.join (List.replicate level unit)

def Layout.separator (l : Layout) (level : Nat) : String :=
  if l.indent.isNone then ", " else "," ++ l.newline level

/-- Items between brackets; none at all stand on the line of their brackets. -/
def Layout.enclose (l : Layout) (level : Nat) (opening closing : String) (items : List String) :
    String :=
  if items.isEmpty then opening ++ closing
  else
    opening ++ l.newline (level + 1) ++ (l.separator (level + 1)).intercalate items ++
      l.newline level ++ closing

mutual

def write (l : Layout) (level : Nat) : Json → String
  | null => "null"
  | bool value => if value then "true" else "false"
  | int value => toString value
  | float value => number value
  | str value => string l.ascii value
  | arr items => l.enclose level "[" "]" (writeItems l (level + 1) items)
  | obj fields => l.enclose level "\x7b" "\x7d" (writeFields l (level + 1) fields)

def writeItems (l : Layout) (level : Nat) : List Json → List String
  | [] => []
  | item :: items => write l level item :: writeItems l level items

def writeFields (l : Layout) (level : Nat) : List (String × Json) → List String
  | [] => []
  | (name, value) :: fields =>
    (string l.ascii name ++ ": " ++ write l level value) :: writeFields l level fields

end

def toText (l : Layout) (j : Json) : String :=
  j.write l 0

/-- Whether a value counts as switched on: nothing, zeros and empty values do not. -/
def isOn : Json → Bool
  | null => false
  | bool value => value
  | int value => value ≠ 0
  | float (.finite _ mantissa _) => mantissa ≠ 0
  | float _ => true
  | str value => value ≠ ""
  | arr items => !items.isEmpty
  | obj fields => !fields.isEmpty

/-- The value of a field; only objects have fields. -/
def field? (name : String) : Json → Option Json
  | obj fields => fields.lookup name
  | _ => none

/-- An item by its position; only arrays have items. -/
def item? (i : Nat) : Json → Option Json
  | arr items => items[i]?
  | _ => none

/-- The text or `null`. -/
def ofOption {α : Type} (f : α → Json) : Option α → Json
  | none => null
  | some a => f a

def strs (texts : List String) : Json :=
  arr (texts.map str)

end Json

end ClassAtlas
