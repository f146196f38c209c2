import ClassAtlas.Text.Pieces

/-! The command line: a classpath and a class name, with options anywhere between them. -/

namespace ClassAtlas.Command

inductive Flag where
  | methods
  | fields
  | inherits
  | json
  | verbose
  | help
  deriving DecidableEq

def longFlags : List (String × Flag) :=
  [("--methods", .methods), ("--fields", .fields), ("--inherits", .inherits), ("--json", .json),
    ("--verbose", .verbose), ("--help", .help)]

def shortFlags : List (Char × Flag) :=
  [('m', .methods), ('f', .fields), ('i', .inherits), ('v', .verbose)]

/-- Arguments in their order, the flags that were given and the last configuration path. -/
structure Arguments where
  positional : List String
  flags : List Flag
  config : Option String
  deriving DecidableEq

namespace Arguments

def addFlag (a : Arguments) (flag : Flag) : Arguments :=
  { a with flags := flag :: a.flags }

def has (a : Arguments) (flag : Flag) : Bool :=
  a.flags.contains flag

/-- Reads one-letter options that share a dash. The one for the configuration path takes what is
left as its value; with nothing left its value is missing still, which the second part says. -/
def addShort : Arguments → List Char → Option (Arguments × Bool)
  | a, [] => some (a, false)
  | a, c :: cs =>
    if c = 'c' then
      if cs.isEmpty then some (a, true) else some ({ a with config := String.ofList cs }, false)
    else
      match shortFlags.lookup c with
      | some flag => addShort (a.addFlag flag) cs
      | none => none

/-- A long option, and its value if one is attached with an equals sign. -/
def cutValue (arg : String) : String × Option String :=
  let cs := arg.toList
  match cs.dropWhile (· ≠ '=') with
  | [] => (arg, none)
  | _ :: value => (String.ofList (cs.takeWhile (· ≠ '=')), some (String.ofList value))

/-- Reads arguments one after the other; two dashes alone end the options. -/
def read : Arguments → List String → Option Arguments
  | a, [] => some a
  | a, arg :: args =>
    match arg.toList with
    | ['-', '-'] => some { a with positional := a.positional ++ args }
    | '-' :: '-' :: _ =>
      match cutValue arg, args with
      | ("--config", some value), args => read { a with config := some value } args
      | ("--config", none), value :: args => read { a with config := some value } args
      | (name, none), args =>
        match longFlags.lookup name with
        | some flag => read (a.addFlag flag) args
        | none => none
      | _, _ => none
    | '-' :: c :: cs =>
      match a.addShort (c :: cs), args with
      | some (a, false), args => read a args
      | some (a, true), value :: args => read { a with config := some value } args
      | _, _ => none
    | _ => read { a with positional := a.positional ++ [arg] } args

def ofList? (args : List String) : Option Arguments :=
  read ⟨[], [], none⟩ args

end Arguments

end ClassAtlas.Command
