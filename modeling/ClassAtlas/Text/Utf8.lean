/-! UTF-8 read byte by byte. A sequence that breaks off is reported once for its longest well-formed
beginning, and reading goes on with the byte that broke it. -/

namespace ClassAtlas.Utf8

/-- A sequence under way: the bits so far, the bytes still owed and the range of the next. -/
structure Pending where
  value : Nat
  owed : Nat
  low : UInt8
  high : UInt8

/-- What a byte between sequences means. -/
inductive Lead where
  | single (value : Nat)
  | opens (pending : Pending)
  | bad

/-- Three-byte forms of surrogates are sequences only if `surrogates` holds. -/
def lead (surrogates : Bool) (b : UInt8) : Lead :=
  if b < 0x80 then .single b.toNat
  else if b < 0xC2 then .bad
  else if b < 0xE0 then .opens ⟨b.toNat - 0xC0, 1, 0x80, 0xBF⟩
  else if b == 0xE0 then .opens ⟨0, 2, 0xA0, 0xBF⟩
  else if b == 0xED && !surrogates then .opens ⟨0xD, 2, 0x80, 0x9F⟩
  else if b < 0xF0 then .opens ⟨b.toNat - 0xE0, 2, 0x80, 0xBF⟩
  else if b == 0xF0 then .opens ⟨0, 3, 0x90, 0xBF⟩
  else if b < 0xF4 then .opens ⟨b.toNat - 0xF0, 3, 0x80, 0xBF⟩
  else if b == 0xF4 then .opens ⟨4, 3, 0x80, 0x8F⟩
  else .bad

/-- Reads a byte between sequences and goes on with `rest`. -/
def enter (surrogates : Bool) (b : UInt8) (rest : Option Pending → List (Option Nat)) :
    List (Option Nat) :=
  match lead surrogates b with
  | .single value => some value :: rest none
  | .opens pending => rest (some pending)
  | .bad => none :: rest none

/-- The code points of a byte string, with `none` for each broken sequence. -/
def scan (surrogates : Bool) : Option Pending → List UInt8 → List (Option Nat)
  | none, [] => []
  | some _, [] => [none]
  | none, b :: bs => enter surrogates b fun p => scan surrogates p bs
  | some p, b :: bs =>
    if p.low ≤ b && b ≤ p.high then
      let value := p.value * 64 + (b.toNat - 0x80)
      if p.owed = 1 then some value :: scan surrogates none bs
      else scan surrogates (some ⟨value, p.owed - 1, 0x80, 0xBF⟩) bs
    else none :: enter surrogates b fun p => scan surrogates p bs

/-- All code points, unless some sequence is broken. -/
def points? (surrogates : Bool) (bytes : List UInt8) : Option (List Nat) :=
  (scan surrogates none bytes).mapM id

def decode? (bytes : List UInt8) : Option String :=
  (points? false bytes).map fun ps => String.ofList (ps.map Char.ofNat)

def replacement : Char := Char.ofNat 0xFFFD

/-- Decodes with a replacement character for each broken sequence. -/
def decodeReplacing (bytes : List UInt8) : String :=
  String.ofList ((scan false none bytes).map fun p => (p.map Char.ofNat).getD replacement)

def encode (text : String) : List UInt8 :=
  text.toUTF8.toList

end ClassAtlas.Utf8
