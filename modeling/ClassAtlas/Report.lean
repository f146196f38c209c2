import ClassAtlas.Summary

/-! Summaries as JSON documents. -/

namespace ClassAtlas

def MemberSummary.fields (m : MemberSummary) : List (String × Json) :=
  [("name", .str m.name), ("descriptor", .str m.descriptor), ("display", .str m.display),
    ("modifiers", .strs m.modifiers)]

def MethodSummary.fields (m : MethodSummary) : List (String × Json) :=
  let size (f : BodySummary → Nat) : Json := .ofOption (fun b => .int (f b)) m.body
  m.toMemberSummary.fields ++ [("max_stack", size BodySummary.maxStack),
    ("max_locals", size BodySummary.maxLocals), ("code_length", size BodySummary.codeLength)]

def AncestorSummary.fields (a : AncestorSummary) : List (String × Json) :=
  [("name", .str a.name), ("kind", .str a.kind)]

def Summary.toJson (s : Summary) : Json :=
  .obj [("name", .str s.name), ("version", .str s.version), ("modifiers", .strs s.modifiers),
    ("super_name", .ofOption .str s.superName), ("interfaces", .strs s.interfaces),
    ("source_file", .ofOption .str s.sourceFile),
    ("fields", .arr (s.fields.map fun m => .obj m.fields)),
    ("methods", .arr (s.methods.map fun m => .obj m.fields)),
    ("ancestors", .arr (s.ancestors.map fun a => .obj a.fields))]

/-- A summary, the version of the program that made it and the time. -/
structure Report where
  version : Json
  generatedAt : String
  summary : Summary

namespace Report

def toJson (r : Report) : Json :=
  .obj [("report_type", .str "classlens_class_summary"), ("version", r.version),
    ("generated_at", .str r.generatedAt), ("class", r.summary.toJson)]

/-- The document with the given indentation, or on one line. -/
def toText (r : Report) (indent : Option String) : String :=
  r.toJson.toText ⟨indent, true⟩

/-- Two spaces. -/
def defaultIndent : Option String := some (Json.spaces 2)

/-- Writes the document to a file, and gives the file's absolute path. -/
def writeTo (r : Report) (fs : FileSystem) (path : Path) :
    Except FileError (FileSystem × Path) := do
  let fs ← fs.write path (Utf8.encode (r.toText defaultIndent))
  return (fs, path.absolute fs.cwd)

end Report

end ClassAtlas
