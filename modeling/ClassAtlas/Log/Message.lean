import ClassAtlas.Log.Place
import ClassAtlas.Text.Numeral

/-! Messages with places for values. A place is a percent sign and the letter of its kind; between
the two may stand a name in brackets, flags, a width and a precision, where a star takes the next
value for a count. Two percent signs next to each other stand for one. -/

namespace ClassAtlas.Log

/-- The values still to be filled in. A single object that is not empty gives its fields too. -/
structure Supply where
  left : List Json
  fields : Option (List (String × Json))

namespace Supply

def ofList (values : List Json) : Supply :=
  match values with
  | [.obj fields] => ⟨values, if fields.isEmpty then none else some fields⟩
  | _ => ⟨values, none⟩

def next (s : Supply) : Except FitError (Json × Supply) :=
  match s.left with
  | [] => .error (.mismatch .tooFew)
  | v :: left => .ok (v, { s with left })

/-- Makes a field the next value. -/
def pick (name : String) (s : Supply) : Except FitError Supply :=
  match s.fields with
  | none => .error (.mismatch .noFields)
  | some fields =>
    match fields.lookup name with
    | none => .error (.noField name)
    | some v => .ok { s with left := [v] }

/-- Every value has to be used, unless they can be reached by name. -/
def close (s : Supply) : Except FitError (List Char) :=
  if s.left.isEmpty || s.fields.isSome then .ok [] else .error (.mismatch .tooMany)

end Supply

/-- The name up to the bracket that closes it, and what follows; brackets inside it come in
pairs. -/
def bracketed : (depth : Nat) → List Char → Option (List Char × List Char)
  | _, [] => none
  | 0, ')' :: cs => some ([], cs)
  | depth, c :: cs =>
    let inner := if c = '(' then depth + 1 else if c = ')' then depth - 1 else depth
    (bracketed inner cs).map fun (name, rest) => (c :: name, rest)

/-- A name at the start of a place picks the value. -/
def pickNamed (s : Supply) : List Char → Except FitError (Supply × List Char)
  | '(' :: cs =>
    if s.fields.isNone then .error (.mismatch .noFields)
    else
      match bracketed 0 cs with
      | none => .error .openName
      | some (name, rest) => (s.pick (String.ofList name)).map fun s => (s, rest)
  | cs => .ok (s, cs)

/-- A count of at most `bits` bits: digits or, for a star, the next value. -/
def readCount (name : String) (bits : Nat) (s : Supply) :
    List Char → Except FitError (Int × Supply × List Char)
  | '*' :: cs => do
    let (v, s) ← s.next
    match integer? v with
    | none => throw (.mismatch .noCount)
    | some n =>
      if n >>> bits = 0 || n >>> bits = -1 then return (n, s, cs)
      else throw (.excess .tooLarge)
  | cs =>
    let n := Numeral.decimal (cs.takeWhile Char.isDigit)
    if n >>> bits = 0 then .ok (n, s, cs.dropWhile Char.isDigit) else .error (.longCount name)

def isSizeMark (c : Char) : Bool :=
  c = 'h' || c = 'l' || c = 'L'

/-- Reads up to the kind. A width below zero stands for a dash, a precision below zero for none. A
size mark in front of the kind does not count. -/
def readPlace (s : Supply) (cs : List Char) : Except FitError (Place × Supply × List Char) := do
  let flags := cs.takeWhile Place.isFlag
  let (width, s, cs) ← readCount "width" 63 s (cs.dropWhile Place.isFlag)
  let (precision, s, cs) ← match cs with
    | '.' :: cs => (readCount "precision" 31 s cs).map fun (n, s, cs) => (some n.toNat, s, cs)
    | cs => pure (none, s, cs)
  let place : Place := ⟨if width < 0 then '-' :: flags else flags, width.natAbs, precision⟩
  match cs with
  | c :: rest => return (place, s, if isSizeMark c then rest else cs)
  | [] => return (place, s, [])

/-- Fills the values in; `size` is the length of the whole message. Every place takes a character
at least. -/
def fill (size : Nat) : (fuel : Nat) → List Char → Supply → Except FitError (List Char)
  | 0, _, s => s.close
  | _, [], s => s.close
  | fuel + 1, c :: cs, s =>
    if c ≠ '%' then (fill size fuel cs s).map fun text => c :: text
    else
      match cs with
      | '%' :: cs => (fill size fuel cs s).map fun text => '%' :: text
      | cs => do
        let (s, cs) ← pickNamed s cs
        let (place, s, cs) ← readPlace s cs
        match cs with
        | [] => throw .openPlace
        | kind :: cs =>
          let (v, s) ← s.next
          let fitted ← place.fit kind (size - (cs.length + 1)) v
          return fitted ++ (← fill size fuel cs s)

/-- Without values a message is left as it is. -/
def fillMessage (text : String) (values : List Json) : Except FitError String :=
  if values.isEmpty then .ok text
  else
    let cs := text.toList
    (fill cs.length cs.length cs (.ofList values)).map String.ofList

end ClassAtlas.Log
