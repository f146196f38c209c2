import ClassAtlas.Text.Hex
import ClassAtlas.Text.Printable

/-! Texts between quotes, as messages show them. Single quotes are used unless the text holds one
and holds no double quote. -/

namespace ClassAtlas.Quoted

def apostrophe : Char := Char.ofNat 39

/-- The quote that stands around a text. -/
def mark (text : List Char) : Char :=
  if text.contains apostrophe && !text.contains '"' then '"' else apostrophe

/-- A character as its code, in two, four or eight digits. -/
def code (c : Char) : List Char :=
  if c.toNat < 0x100 then '\\' :: 'x' :: Hex.digits 'a' 2 c.toNat
  else if c.toNat < 0x10000 then '\\' :: 'u' :: Hex.digits 'a' 4 c.toNat
  else '\\' :: 'U' :: Hex.digits 'a' 8 c.toNat

/-- One character between the given quotes. -/
def escape (quote c : Char) : List Char :=
  if c == quote || c == '\\' then ['\\', c]
  else if c == '\n' then ['\\', 'n']
  else if c == '\r' then ['\\', 'r']
  else if c == '\t' then ['\\', 't']
  else if isPrintable c then [c]
  else code c

def encode (text : List Char) : List Char :=
  mark text :: (text.flatMap (escape (mark text)) ++ [mark text])

/-- The codes of all but the ASCII characters. -/
def ascii (text : List Char) : List Char :=
  text.flatMap fun c => if c.toNat < 0x80 then [c] else code c

end ClassAtlas.Quoted

namespace ClassAtlas

def quoted (text : String) : String :=
  String.ofList (Quoted.encode text.toList)

/-- Bytes between quotes after a `b`, all but the printable ASCII ones escaped. -/
def quotedBytes (bytes : List UInt8) : String :=
  let text := bytes.map fun b => Char.ofNat b.toNat
  let escapeByte (c : Char) : List Char :=
    if c.toNat < 0x7F then Quoted.escape (Quoted.mark text) c
    else Quoted.code c
  String.ofList ('b' :: Quoted.mark text :: (text.flatMap escapeByte ++ [Quoted.mark text]))

/-- A bracketed list of quoted texts. -/
def quotedList (texts : List String) : String :=
  "[" ++ ", ".intercalate (texts.map quoted) ++ "]"

end ClassAtlas
