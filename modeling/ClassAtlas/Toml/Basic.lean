import ClassAtlas.Json.Basic

/-! Values of TOML, a language for configuration files. -/

namespace ClassAtlas

namespace Toml

structure Date where
  year : Nat
  month : Nat
  day : Nat
  deriving DecidableEq

structure Time where
  hour : Nat
  minute : Nat
  second : Nat
  micros : Nat
  deriving DecidableEq

/-- A date, a time or both. Both together may have an offset in minutes. -/
inductive Moment where
  | date (date : Date)
  | time (time : Time)
  | both (date : Date) (time : Time) (offset : Option Int)
  deriving DecidableEq

def isLeap (year : Nat) : Bool :=
  year % 4 = 0 && (year % 100 ≠ 0 || year % 400 = 0)

def daysIn (year month : Nat) : Nat :=
  if month = 2 then if isLeap year then 29 else 28
  else if month = 4 ∨ month = 6 ∨ month = 9 ∨ month = 11 then 30
  else 31

/-- Whether the calendar has the date. It starts with year one. -/
def Date.isValid (d : Date) : Bool :=
  1 ≤ d.year && 1 ≤ d.month && d.month ≤ 12 && 1 ≤ d.day && d.day ≤ daysIn d.year d.month

/-- The last `width` decimal digits. -/
def padded (width n : Nat) : String :=
  let digits := Nat.toDigits 10 n
  String.ofList (List.replicate (width - digits.length) '0' ++ digits)

def Date.toText (d : Date) : String :=
  s!"{padded 4 d.year}-{padded 2 d.month}-{padded 2 d.day}"

def Time.toText (t : Time) : String :=
  s!"{padded 2 t.hour}:{padded 2 t.minute}:{padded 2 t.second}" ++
    if t.micros = 0 then "" else "." ++ padded 6 t.micros

def offsetText (minutes : Int) : String :=
  let sign := if minutes < 0 then "-" else "+"
  s!"{sign}{padded 2 (minutes.natAbs / 60)}:{padded 2 (minutes.natAbs % 60)}"

def Moment.toText : Moment → String
  | date d => d.toText
  | time t => t.toText
  | both d t offset => s!"{d.toText} {t.toText}" ++ (offset.map offsetText).getD ""

end Toml

/-- The entries of a table are in the order they were given. -/
inductive Toml where
  | str (value : String)
  | int (value : Int)
  | float (value : Double)
  | bool (value : Bool)
  | moment (value : Toml.Moment)
  | arr (items : List Toml)
  | table (entries : List (String × Toml))
  deriving Inhabited

namespace Toml

/-- Whether a value counts as switched on: zeros and empty values do not. -/
def isOn : Toml → Bool
  | str value => value ≠ ""
  | int value => value ≠ 0
  | float (.finite _ mantissa _) => mantissa ≠ 0
  | float _ => true
  | bool value => value
  | moment _ => true
  | arr items => !items.isEmpty
  | table entries => !entries.isEmpty

/-- How many digits an integer may have where it is read or written in decimal. -/
def maxDigits : Nat := 4300

/-- Why a value has no form in JSON. -/
inductive WriteFault where
  | moment
  | longInteger
  deriving DecidableEq

mutual

/-- The same value in JSON, which has no dates and times. Of several faults the first one counts. -/
def toJson : Toml → Except WriteFault Json
  | str value => .ok (.str value)
  | int value =>
    if value.natAbs < Nat.pow 10 maxDigits then .ok (.int value) else .error .longInteger
  | float value => .ok (.float value)
  | bool value => .ok (.bool value)
  | moment _ => .error .moment
  | arr items => (itemsToJson items).map .arr
  | table entries => (entriesToJson entries).map .obj

def itemsToJson : List Toml → Except WriteFault (List Json)
  | [] => .ok []
  | item :: items => do
    let j ← toJson item
    return j :: (← itemsToJson items)

def entriesToJson : List (String × Toml) → Except WriteFault (List (String × Json))
  | [] => .ok []
  | (name, value) :: entries => do
    let j ← toJson value
    return (name, j) :: (← entriesToJson entries)

end

end Toml

end ClassAtlas
