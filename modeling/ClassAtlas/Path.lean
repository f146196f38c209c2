import ClassAtlas.Text.Percent
import ClassAtlas.Text.Pieces

/-! Slash-separated paths. Empty and `.` components carry no meaning and are not kept; `..` is. -/

namespace ClassAtlas

/-- What a path starts from. Exactly two leading slashes are a root of their own. -/
inductive Path.Root where
  | relative
  | single
  | double
  deriving DecidableEq, Repr

structure Path where
  root : Path.Root
  parts : List String
  deriving DecidableEq, Repr

namespace Path

def Root.ofText : List Char → Root
  | '/' :: '/' :: '/' :: _ => single
  | '/' :: '/' :: _ => double
  | '/' :: _ => single
  | _ => relative

def Root.text : Root → String
  | relative => ""
  | single => "/"
  | double => "//"

def componentsOf (text : List Char) : List String :=
  ((pieces (· == '/') text).map String.ofList).filter fun part => part != "" && part != "."

def ofText (text : String) : Path :=
  ⟨Root.ofText text.toList, componentsOf text.toList⟩

/-- The empty relative path is written `.`. -/
def toText (p : Path) : String :=
  if p.root = .relative ∧ p.parts = [] then "." else p.root.text ++ "/".intercalate p.parts

/-- The bytes of the text, with one behind each component: the slash there, or the end. -/
def size (p : Path) : Nat :=
  p.parts.foldl (fun size part => size + part.utf8ByteSize + 1) p.root.text.utf8ByteSize

/-- An absolute second path stands alone. -/
def join (p q : Path) : Path :=
  if q.root = .relative then ⟨p.root, p.parts ++ q.parts⟩ else q

/-- The last component, empty for a bare root. -/
def name (p : Path) : String :=
  p.parts.getLast?.getD ""

def parent (p : Path) : Path :=
  ⟨p.root, p.parts.dropLast⟩

/-- The name from its last dot on, unless the dot is its first or last character. -/
def suffix (p : Path) : String :=
  match cutLast (· == '.') p.name.toList with
  | (some (_ :: _), back@(_ :: _)) => String.ofList ('.' :: back)
  | _ => ""

/-- Removes each `..` together with the component before it. -/
def collapse (parts : List String) : List String :=
  (parts.foldl (fun done part => if part = ".." then done.tail else part :: done) []).reverse

/-- The path seen from the directory with the given components, without `..`. -/
def absoluteParts (cwd : List String) (p : Path) : List String :=
  collapse (if p.root = .relative then cwd ++ p.parts else p.parts)

def absolute (cwd : List String) (p : Path) : Path :=
  ⟨.single, p.absoluteParts cwd⟩

def uri (p : Path) : String :=
  "file://" ++ percentEncode p.toText

end Path

end ClassAtlas
