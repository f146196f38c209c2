import ClassAtlas.Console.Block
import ClassAtlas.Summary

/-! Summaries as console blocks: the class itself, and on demand its methods, fields and
ancestors. -/

namespace ClassAtlas

open Console

/-- What is shown beside the class itself. -/
structure DisplayOptions where
  methods : Bool
  fields : Bool
  ancestors : Bool

namespace Summary

/-- A dash stands for an empty text. -/
def orDash (text : String) : String :=
  if text.isEmpty then "-" else text

def headBlocks (s : Summary) : List Block :=
  let row (name value : String) : List Json := [.str name, .str value]
  [.heading s.dottedName,
    .table ⟨"Class", ["Property", "Value"],
      [row "Class" s.name, row "Version" s.version,
        row "Modifiers" (orDash (" ".intercalate s.modifiers)),
        row "Superclass" (orDash (s.superName.getD "")),
        row "Interfaces" (orDash (", ".intercalate s.interfaces)),
        row "Source file" (orDash (s.sourceFile.getD "")),
        [.str "Fields", .int s.fields.length], [.str "Methods", .int s.methods.length]],
      some ["lens.info", ""]⟩]

def memberRow (m : MemberSummary) : List Json :=
  [.str (" ".intercalate m.modifiers), .str m.display, .str m.descriptor]

def methodRow (m : MethodSummary) : List Json :=
  memberRow m.toMemberSummary ++ [(m.body.map fun b => Json.int b.codeLength).getD (.str "-")]

def methodBlock (s : Summary) : Block :=
  if s.methods.isEmpty then .info (s.name ++ " declares no methods.")
  else
    .table ⟨"Methods", ["Modifiers", "Method", "Descriptor", "Code bytes"], s.methods.map methodRow,
      some ["lens.dim", "lens.highlight", "", ""]⟩

def fieldBlock (s : Summary) : Block :=
  if s.fields.isEmpty then .info (s.name ++ " declares no fields.")
  else
    .table ⟨"Fields", ["Modifiers", "Field", "Descriptor"], s.fields.map memberRow,
      some ["lens.dim", "lens.highlight", ""]⟩

/-- The colour in which a kind of ancestor is shown. -/
def kindStyle (kind : String) : String :=
  if kind = "Extends" then "bright_green"
  else if kind = "Implements" then "bright_cyan"
  else "white"

def ancestorRow (depth : Nat) (a : AncestorSummary) : List Json :=
  [.int depth, .str s!"[{kindStyle a.kind}]{a.kind}[/]", .str a.name]

def ancestorBlock (s : Summary) : Block :=
  if s.ancestors.isEmpty then .info s!"No ancestors of {s.name} are on the classpath."
  else
    .table ⟨"Inheritance", ["#", "Kind", "Ancestor"],
      s.ancestors.mapIdx fun i a => ancestorRow (i + 1) a, none⟩

def blocks (s : Summary) (options : DisplayOptions) : List Block :=
  s.headBlocks ++ (if options.methods then [s.methodBlock] else []) ++
    (if options.fields then [s.fieldBlock] else []) ++
    (if options.ancestors then [s.ancestorBlock] else [])

end Summary

end ClassAtlas
