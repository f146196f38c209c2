import ClassAtlas.Toml.Basic

/-! Tables that are still being filled. A table is opened by a header of its own, by a longer header
or by a dotted key, and that says what may still be put into it. -/

namespace ClassAtlas.Toml

/-- How a table came to be. Dotted keys reach only tables of their own section, and only a table
that no header and no dotted key has opened can still get a header. -/
inductive Opening where
  | implied
  | dotted (part : Nat)
  | declared
  deriving DecidableEq

/-- A value that is written out takes nothing more. Of several tables of one name only the last is
still filled. -/
inductive Node where
  | value (value : Toml)
  | table (opening : Opening) (entries : List (String × Node))
  | tables (done : List (List (String × Node))) (last : List (String × Node))

abbrev Entries := List (String × Node)

namespace Entries

/-- Puts a node in the place of the one of that name. -/
def replace (name : String) (node : Node) (es : Entries) : Entries :=
  es.map fun e => if e.1 = name then (name, node) else e

/-- Changes the table at a place. Tables on the way there are made where they are missing. -/
def change (f : Entries → Option Entries) : (place : List String) → Entries → Option Entries
  | [], es => f es
  | name :: place, es =>
    match es.lookup name with
    | none => (change f place []).map fun inner => es ++ [(name, .table .implied inner)]
    | some (.table opening inner) =>
      (change f place inner).map fun inner => replace name (.table opening inner) es
    | some (.tables done last) =>
      (change f place last).map fun last => replace name (.tables done last) es
    | some (.value _) => none

/-- Opens a table by its header. -/
def declare (name : String) (es : Entries) : Option Entries :=
  match es.lookup name with
  | none => some (es ++ [(name, .table .declared [])])
  | some (.table .implied inner) => some (replace name (.table .declared inner) es)
  | _ => none

/-- Opens another table of a name that only such tables have. -/
def append (name : String) (es : Entries) : Option Entries :=
  match es.lookup name with
  | none => some (es ++ [(name, .tables [] [])])
  | some (.tables done last) => some (replace name (.tables (done ++ [last]) []) es)
  | _ => none

/-- Puts a value under a dotted key, given by its first part and the others. -/
def assign (part : Nat) (value : Toml) : (head : String) → (tail : List String) → Entries →
    Option Entries
  | name, [], es => if (es.lookup name).isSome then none else some (es ++ [(name, .value value)])
  | name, next :: tail, es =>
    match es.lookup name with
    | none =>
      (assign part value next tail []).map fun inner =>
        es ++ [(name, .table (.dotted part) inner)]
    | some (.table opening inner) =>
      if opening = .implied ∨ opening = .dotted part then
        (assign part value next tail inner).map fun inner =>
          replace name (.table (.dotted part) inner) es
      else none
    | _ => none

mutual

def finishNode : Node → Toml
  | .value value => value
  | .table _ entries => .table (finish entries)
  | .tables done last => .arr (finishAll done ++ [.table (finish last)])

/-- The values, once nothing more is put in. -/
def finish : List (String × Node) → List (String × Toml)
  | [] => []
  | (name, node) :: es => (name, finishNode node) :: finish es

def finishAll : List (List (String × Node)) → List Toml
  | [] => []
  | es :: rest => .table (finish es) :: finishAll rest

end

end Entries

end ClassAtlas.Toml
