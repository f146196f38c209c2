import ClassAtlas.Text.Numeral
import ClassAtlas.Toml.Basic

/-! Numbers, dates and times of TOML. Each reader takes the longest numeral there is and leaves the
rest of the text. -/

namespace ClassAtlas.Toml

/-- Why a text is not taken. Only a malformed one may still be something else; the other faults are
final. -/
inductive Fault where
  | malformed
  | longInteger (digits : Nat)
  | tooDeep
  deriving DecidableEq

def Fault.message : Fault → String
  | malformed => "the file is not TOML"
  | longInteger digits =>
    s!"Exceeds the limit ({maxDigits} digits) for integer string conversion: value has {digits} " ++
      "digits; use sys.set_int_max_str_digits() to increase the limit"
  | tooDeep => "values are nested too deeply"

instance : Alternative (Except Fault) where
  failure := .error .malformed
  orElse x y :=
    match x with
    | .error .malformed => y ()
    | x => x

/-- Reads from the front of a text. -/
abbrev Parse := StateT (List Char) (Except Fault)

namespace Parse

/-- The next character, if it satisfies `p`. -/
def charThat (p : Char → Bool) : Parse Char
  | c :: cs => if p c then .ok (c, cs) else .error .malformed
  | [] => .error .malformed

def char (c : Char) : Parse Unit := do
  let _ ← charThat (· = c)

def word (w : List Char) : Parse Unit
  | cs => if w.isPrefixOf cs then .ok ((), cs.drop w.length) else .error .malformed

/-- The value of what is there, or nothing and the text as it was. -/
def attempt {α : Type} (x : Parse α) : Parse (Option α) :=
  (some <$> x) <|> pure none

def takeWhile (p : Char → Bool) : Parse (List Char)
  | cs => .ok (cs.takeWhile p, cs.dropWhile p)

/-- Further digits, each with an underscore before it or not. -/
def digitsAfter (p : Char → Bool) : List Char → List Char × List Char
  | '_' :: d :: cs =>
    if p d then
      let (digits, rest) := digitsAfter p cs
      (d :: digits, rest)
    else ([], '_' :: d :: cs)
  | d :: cs =>
    if p d then
      let (digits, rest) := digitsAfter p cs
      (d :: digits, rest)
    else ([], d :: cs)
  | [] => ([], [])

/-- Digits of which single underscores may stand between two. -/
def digits (p : Char → Bool) : Parse (List Char) := do
  let d ← charThat p
  let ds ← fun cs => .ok (digitsAfter p cs)
  return d :: ds

/-- Digits of a base behind its mark. -/
def based (mark : Char) (base : Nat) : Parse Toml := do
  word ['0', mark]
  let ds ← digits fun c => (Hex.value? c).any (· < base)
  return .int (Numeral.value base ds)

def isMinus (sign : Option Char) : Bool :=
  sign = some '-'

def readSign : Parse (Option Char) :=
  attempt (charThat fun c => c = '+' || c = '-')

/-- Digits without a leading zero. -/
def whole : Parse (List Char) := do
  match ← attempt (char '0') with
  | some () => return ['0']
  | none => digits Char.isDigit

def fraction : Parse (List Char) := do
  char '.'
  digits Char.isDigit

def exponent : Parse Int := do
  let _ ← charThat fun c => c = 'e' || c = 'E'
  let sign ← readSign
  let ds ← digits Char.isDigit
  return Numeral.signed (isMinus sign) ds

/-- The value of the digits of an integer. -/
def integerOf (negative : Bool) (digits : List Char) : Parse Toml := do
  if maxDigits < digits.length then throw (.longInteger digits.length)
  return .int (Numeral.signed negative digits)

/-- A number with a fraction or an exponent is a floating-point one. -/
def decimal : Parse Toml := do
  let sign ← readSign
  let front ← whole
  let back ← attempt fraction
  let power ← attempt exponent
  if back.isNone && power.isNone then integerOf (isMinus sign) front
  else
    let back := back.getD []
    return .float (.ofDecimal (isMinus sign) (Numeral.decimal (front ++ back))
      (power.getD 0 - back.length))

def special : Parse Toml := do
  let sign ← readSign
  match ← attempt (word ['i', 'n', 'f']) with
  | some () => return .float (.infinite (isMinus sign))
  | none =>
    word ['n', 'a', 'n']
    return .float .nan

def number : Parse Toml :=
  based 'x' 16 <|> based 'b' 2 <|> based 'o' 8 <|> decimal <|> special

/-- Exactly `count` digits, with a value in a range. -/
def numeral (count low high : Nat) : Parse Nat := do
  let ds ← (List.replicate count ()).mapM fun _ => charThat Char.isDigit
  let n := Numeral.decimal ds
  if low ≤ n && n ≤ high then return n else failure

/-- Six digits of a fraction of a second; further ones do not count. -/
def micros : Parse Nat := do
  char '.'
  let d ← charThat Char.isDigit
  let ds ← takeWhile Char.isDigit
  return Numeral.decimal ((d :: ds ++ List.replicate 5 '0').take 6)

def time : Parse Time := do
  let hour ← numeral 2 0 23
  char ':'
  let minute ← numeral 2 0 59
  char ':'
  let second ← numeral 2 0 59
  return ⟨hour, minute, second, (← attempt micros).getD 0⟩

/-- Only what the calendar has is a date, but a text that looks like one is nothing else. -/
def date : Parse Date := do
  let year ← numeral 4 0 9999
  char '-'
  let month ← numeral 2 1 12
  char '-'
  let day ← numeral 2 1 31
  return ⟨year, month, day⟩

def offset : Parse Int := do
  match ← attempt (charThat fun c => c = 'Z' || c = 'z') with
  | some _ => return 0
  | none =>
    let sign ← charThat fun c => c = '+' || c = '-'
    let hours ← numeral 2 0 23
    char ':'
    let minutes ← numeral 2 0 59
    let total : Int := 60 * hours + minutes
    return if sign = '-' then -total else total

def timeAfterDate : Parse (Time × Option Int) := do
  let _ ← charThat fun c => c = 'T' || c = 't' || c = ' '
  let t ← time
  return (t, ← attempt offset)

/-- A date, with a time or without. -/
def dated : Parse Moment := do
  let d ← date
  let t ← attempt timeAfterDate
  if !d.isValid then failure
  match t with
  | some (t, offset) => return .both d t offset
  | none => return .date d

def moment : Parse Toml := do
  match ← attempt dated with
  | some m => return .moment m
  | none => return .moment (.time (← time))

end Parse

end ClassAtlas.Toml
