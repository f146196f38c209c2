import ClassAtlas.Name.Identifier
import ClassAtlas.Signature
import ClassAtlas.Text.Quoted

/-! Reading descriptors. Arrays have at most 255 dimensions and methods nest at most 32 deep; the
whole text has to be one descriptor. -/

namespace ClassAtlas

namespace Descriptor

def maxDimensions : Nat := 255

def maxNesting : Nat := 32

/-- What is wrong at a place of a descriptor. -/
inductive Fault where
  | empty
  | unexpectedEnd
  | tooManyDimensions (count : Nat)
  | unexpectedCharacter (c : Char)
  | unterminatedObject
  | invalidPath (path : List Char)
  | nestedTooDeeply
  | unterminatedArguments
  | trailing (rest : List Char)
  | notMethod
  deriving DecidableEq, Repr

def Fault.message : Fault → String
  | empty => "empty descriptor"
  | unexpectedEnd => "unexpected end of descriptor"
  | tooManyDimensions count => s!"too many array dimensions ({count})"
  | unexpectedCharacter c => "unexpected character " ++ quoted (String.singleton c)
  | unterminatedObject => "unterminated object reference"
  | invalidPath path => "invalid class path " ++ quoted (String.ofList path)
  | nestedTooDeeply => "method descriptor nested too deeply"
  | unterminatedArguments => "unterminated argument list"
  | trailing rest => "trailing input " ++ quoted (String.ofList rest)
  | notMethod => "not a method descriptor"

/-- A fault and the number of characters before it. -/
abbrev Failure := Nat × Fault

/-- A value, the number of characters read so far and those that are left. -/
abbrev Outcome (α : Type) := Except Failure (α × Nat × List Char)

/-- The leading opening brackets: their number and what follows them. -/
def takeBrackets : List Char → Nat × List Char
  | '[' :: cs => ((takeBrackets cs).1 + 1, (takeBrackets cs).2)
  | cs => (0, cs)

/-- A class reference after its `L`, which stands at `pos`. -/
def readObject (pos : Nat) (cs : List Char) : Outcome Signature :=
  match cs.span (· != ';') with
  | (_, []) => .error (pos, .unterminatedObject)
  | (path, _ :: rest) =>
    if isInternalName path then
      .ok (.object (String.ofList path), pos + path.length + 2, rest)
    else .error (pos + 1, .invalidPath path)

/-- Arguments up to the closing bracket, read one by one with `read`; `opening` is the place of
the opening bracket. Each takes a character at least, so `fuel` characters suffice. -/
def readArguments (read : Nat → List Char → Outcome Signature) (opening : Nat) :
    (fuel : Nat) → (pos : Nat) → List Char → Outcome (List Signature)
  | 0, _, _ => .error (opening, .unterminatedArguments)
  | _ + 1, _, [] => .error (opening, .unterminatedArguments)
  | _ + 1, pos, ')' :: rest => .ok ([], pos + 1, rest)
  | fuel + 1, pos, cs =>
    match read pos cs with
    | .error e => .error e
    | .ok (arg, next, rest) =>
      match readArguments read opening fuel next rest with
      | .error e => .error e
      | .ok (args, last, rest) => .ok (arg :: args, last, rest)

/-- A type that is not an array, whose first character stands at `pos`. The parts of a method are
read with `read`, which is missing where methods may nest no deeper. -/
def readPlain (read : Option (Nat → List Char → Outcome Signature)) (pos : Nat) :
    List Char → Outcome Signature
  | [] => .error (pos, .unexpectedEnd)
  | c :: cs =>
    match Primitive.ofLetter? c with
    | some type => .ok (.base type, pos + 1, cs)
    | none =>
      if c = 'L' then readObject pos cs
      else if c = '(' then
        match read with
        | none => .error (pos, .nestedTooDeeply)
        | some read =>
          match readArguments read pos (cs.length + 1) (pos + 1) cs with
          | .error e => .error e
          | .ok (args, next, rest) =>
            match read next rest with
            | .error e => .error e
            | .ok (result, last, rest) => .ok (.method args result, last, rest)
      else .error (pos, .unexpectedCharacter c)

/-- A type with the array dimensions before it, given how to read one without. -/
def readDimensions (plain : Nat → List Char → Outcome Signature) (pos : Nat) (cs : List Char) :
    Outcome Signature :=
  let (depth, rest) := takeBrackets cs
  if maxDimensions < depth then .error (pos, .tooManyDimensions depth)
  else
    match plain (pos + depth) rest with
    | .error e => .error e
    | .ok (type, next, rest) => .ok (type.wrap depth, next, rest)

/-- A type in which methods nest at most `levels` deep. -/
def readType : (levels : Nat) → Nat → List Char → Outcome Signature
  | 0 => readDimensions (readPlain none)
  | levels + 1 => readDimensions (readPlain (some (readType levels)))

/-- The whole text has to be one descriptor. -/
def readAll (cs : List Char) : Except Failure Signature :=
  if cs.isEmpty then .error (0, .empty)
  else
    match readType maxNesting 0 cs with
    | .error e => .error e
    | .ok (type, pos, rest) => if rest.isEmpty then .ok type else .error (pos, .trailing rest)

end Descriptor

/-- A text that is no descriptor, and where it goes wrong. -/
structure GrammarError where
  text : String
  position : Nat
  fault : Descriptor.Fault
  deriving DecidableEq, Repr

def GrammarError.message (e : GrammarError) : String :=
  s!"invalid descriptor {quoted e.text} at position {e.position}: {e.fault.message}"

namespace Signature

def ofDescriptor (text : String) : Except GrammarError Signature :=
  match Descriptor.readAll text.toList with
  | .ok type => .ok type
  | .error (position, fault) => .error ⟨text, position, fault⟩

end Signature

/-- Argument types and result type of a method. -/
structure MethodType where
  args : List Signature
  result : Signature

namespace MethodType

def toSignature (m : MethodType) : Signature :=
  .method m.args m.result

def ofDescriptor (text : String) : Except GrammarError MethodType :=
  match Signature.ofDescriptor text with
  | .ok (.method args result) => .ok ⟨args, result⟩
  | .ok _ => .error ⟨text, 0, .notMethod⟩
  | .error e => .error e

end MethodType

end ClassAtlas
