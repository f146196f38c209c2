import ClassAtlas.Json.Literal
import ClassAtlas.Number.Rounded

/-! Places for values in messages. A letter says of what kind a place is: any value, a character, a
whole number in base ten, sixteen or eight, or a decimal. Flags, a width and a precision say how the
value is laid out. -/

namespace ClassAtlas.Log

/-- Why values are not what a message asks for. -/
inductive Mismatch where
  | tooFew
  | tooMany
  | noFields
  | noCount
  | noCharacter
  | noNumber
  | noWholeNumber
  deriving DecidableEq

/-- Why a number cannot be written as its place asks for. -/
inductive Excess where
  | endless
  | noCharacter
  | tooLarge
  deriving DecidableEq

/-- Why a message cannot be filled in. -/
inductive FitError where
  | mismatch (m : Mismatch)
  | excess (e : Excess)
  | noField (name : String)
  | undefined
  | longCount (name : String)
  | openName
  | openPlace
  | unknownKind (kind : Char) (position : Nat)
  deriving DecidableEq

def Mismatch.message : Mismatch → String
  | tooFew => "not enough arguments for format string"
  | tooMany => "not all arguments converted during string formatting"
  | noFields => "format requires a mapping"
  | noCount => "a count is needed"
  | noCharacter => "a character is needed"
  | noNumber => "a number is needed"
  | noWholeNumber => "a whole number is needed"

def Excess.message : Excess → String
  | endless => "cannot convert float infinity to integer"
  | noCharacter => "there is no such character"
  | tooLarge => "the number is too large"

/-- A kind outside the printable ASCII characters is shown as a question mark. -/
def FitError.message : FitError → String
  | mismatch m => m.message
  | excess e => e.message
  | noField name => quoted name
  | undefined => "cannot convert float NaN to integer"
  | longCount name => name ++ " too big"
  | openName => "incomplete format key"
  | openPlace => "incomplete format"
  | unknownKind kind position =>
    let shown := if 31 ≤ kind.toNat && kind.toNat ≤ 126 then kind else '?'
    let code := String.ofList (Nat.toDigits 16 kind.toNat)
    s!"unsupported format character '{shown}' (0x{code}) at index {position}"

/-- A value as a whole number if it is one. -/
def integer? : Json → Option Int
  | .int value => some value
  | .bool value => some (if value then 1 else 0)
  | _ => none

/-- A value as a whole number; a fraction is cut off. -/
def wholeNumber : Json → Except FitError Int
  | .float (.finite negative mantissa exponent) =>
    let size : Nat := mantissa <<< exponent.toNat >>> (-exponent).toNat
    .ok (if negative then -(size : Int) else size)
  | .float (.infinite _) => .error (.excess .endless)
  | .float .nan => .error .undefined
  | value => (integer? value).elim (.error (.mismatch .noNumber)) .ok

/-- The double nearest to a value. -/
def realNumber : Json → Except FitError Double
  | .float value => .ok value
  | value =>
    match integer? value with
    | none => .error (.mismatch .noNumber)
    | some n =>
      match Double.ofDecimal (n < 0) n.natAbs 0 with
      | .infinite _ => .error (.excess .tooLarge)
      | x => .ok x

/-- A character, or the number of one. -/
def character (value : Json) : Except FitError Char :=
  match value, integer? value with
  | .str text, _ =>
    match text.toList with
    | [c] => .ok c
    | _ => .error (.mismatch .noCharacter)
  | _, none => .error (.mismatch .noCharacter)
  | _, some n =>
    if n < 0 || 0x10FFFF < n then .error (.excess .noCharacter) else .ok (Char.ofNat n.toNat)

/-- How a place lays its value out. -/
structure Place where
  flags : List Char
  width : Nat
  precision : Option Nat

namespace Place

def isFlag (c : Char) : Bool :=
  c = '-' || c = '+' || c = ' ' || c = '#' || c = '0'

def has (p : Place) (flag : Char) : Bool :=
  p.flags.contains flag

/-- The text with blanks up to the width, in front of it or, with a dash, behind it. -/
def pad (p : Place) (text : List Char) : List Char :=
  let blanks := List.replicate (p.width - text.length) ' '
  if p.has '-' then text ++ blanks else blanks ++ text

/-- The precision cuts a text off. -/
def text (p : Place) (text : List Char) : List Char :=
  p.pad ((p.precision.map fun n => text.take n).getD text)

def sign (p : Place) (negative : Bool) : List Char :=
  if negative then ['-'] else if p.has '+' then ['+'] else if p.has ' ' then [' '] else []

/-- The sign, the mark of a base and the digits. Zeros may fill the width up in front of the
digits. -/
def numeral (p : Place) (negative : Bool) (mark digits : List Char) : List Char :=
  let front := p.sign negative ++ mark
  let missing := p.width - (front.length + digits.length)
  let zeros := if p.has '0' && !p.has '-' then List.replicate missing '0' else []
  p.pad (front ++ zeros ++ digits)

/-- The precision is the least number of digits. The mark of the base is shown where it is asked
for. -/
def whole (p : Place) (base : Nat) (mark : List Char) (n : Int) : List Char :=
  let digits := Nat.toDigits base n.natAbs
  let zeros := List.replicate (p.precision.getD 0 - digits.length) '0'
  p.numeral (n < 0) (if p.has '#' then mark else []) (zeros ++ digits)

/-- The precision is the number of places, or of digits where the shorter form is chosen. -/
def real (p : Place) (kind : Char) : Double → List Char
  | .nan => p.numeral false [] ['n', 'a', 'n']
  | .infinite negative => p.numeral negative [] ['i', 'n', 'f']
  | .finite negative mantissa exponent =>
    let size := p.precision.getD 6
    let decimal :=
      if kind = 'e' then Double.scientific mantissa exponent size
      else if kind = 'f' then Double.fixed mantissa exponent size
      else
        let d := Double.general mantissa exponent (max size 1)
        if p.has '#' then d else d.trim
    p.numeral negative [] (decimal.toList (p.has '#'))

/-- A number in one of the kinds written with small letters. -/
def number (p : Place) (kind : Char) (v : Json) : Except FitError (List Char) :=
  let integer : Except FitError Int := (integer? v).elim (.error (.mismatch .noWholeNumber)) .ok
  match kind with
  | 'x' => integer.map (p.whole 16 ['0', 'x'])
  | 'o' => integer.map (p.whole 8 ['0', 'o'])
  | 'd' | 'i' | 'u' => (wholeNumber v).map (p.whole 10 [])
  | _ => (realNumber v).map (p.real kind)

/-- The value in the form of a kind, which stands at a position of the message. -/
def fit (p : Place) (kind : Char) (position : Nat) (v : Json) : Except FitError (List Char) :=
  match kind with
  | 's' => .ok (p.text v.display.toList)
  | 'r' => .ok (p.text v.literal.toList)
  | 'a' => .ok (p.text (Quoted.ascii v.literal.toList))
  | 'c' => (character v).map fun c => p.pad [c]
  | 'd' | 'i' | 'u' | 'x' | 'o' | 'e' | 'f' | 'g' => p.number kind v
  | 'X' | 'E' | 'F' | 'G' => (p.number kind.toLower v).map fun text => text.map Char.toUpper
  | _ => .error (.unknownKind kind position)

end Place

end ClassAtlas.Log
