import ClassAtlas.Archive.Basic
import ClassAtlas.ClassFile.DecodeError
import ClassAtlas.FileSystem
import ClassAtlas.Name.Basic

/-! What can go wrong while classes are looked up. -/

namespace ClassAtlas

/-- Why a classpath entry cannot be used. -/
inductive EntryFault where
  | unknownKind
  | noArchive
  | cannotOpenFile (e : FileError)
  | cannotOpen (e : ArchiveError)
  | cannotReadMember (member : String) (e : ArchiveError)
  | cannotReadClass (e : FileError)
  | cannotReadName (e : DecodeError)
  | cannotRead (e : FileError)
  deriving DecidableEq

def EntryFault.message : EntryFault → String
  | unknownKind => "expected a directory, .jar, .zip or .class file"
  | noArchive => "archive does not exist"
  | cannotOpenFile e => "cannot open archive: " ++ e.message
  | cannotOpen e => "cannot open archive: " ++ e.message
  | cannotReadMember member e => s!"cannot read {member}: {e.message}"
  | cannotReadClass e => "cannot read class file: " ++ e.message
  | cannotReadName e => "cannot read class name: " ++ e.message
  | cannotRead e => "cannot read: " ++ e.message

/-- How a class is related to a direct ancestor. -/
inductive Relation where
  | superclass
  | interface
  deriving DecidableEq, Repr

def Relation.label : Relation → String
  | superclass => "Extends"
  | interface => "Implements"

inductive Error where
  | decode (e : DecodeError)
  | notFound (name : String)
  | entry (path : Path) (fault : EntryFault)
  | repeatedEdge (source target : String) (relation : Relation)
  | badName (e : NameError)
  | file (e : FileError)
  | archive (e : ArchiveError)
  | noRoot (name : String)
  deriving DecidableEq

namespace Error

def message : Error → String
  | decode e => e.message
  | notFound name => "No class found for name " ++ quoted name
  | entry path fault => s!"Unsupported entry in classpath {quoted path.toText}: {fault.message}"
  | repeatedEdge source target relation =>
    s!"adding inheritance of {source} failed: edge {source} -> {target} ({relation.label}) " ++
      "already exists"
  | badName e => e.message
  | file e => e.message
  | archive e => e.message
  | noRoot name => s!"root {name} is not a node of the graph"

end Error

/-- The name of an error's kind, if it is one that lookups are expected to end with. -/
def Error.kind? : Error → Option String
  | decode e => some e.kind
  | notFound _ => some "ClassNotFoundError"
  | entry .. => some "ClasspathConfigurationError"
  | repeatedEdge .. => some "InheritanceGraphError"
  | _ => none

end ClassAtlas
