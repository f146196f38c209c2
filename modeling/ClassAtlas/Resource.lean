import ClassAtlas.FileSystem

/-! Things found on a classpath. A file is read when asked for; what was in an archive is kept. -/

namespace ClassAtlas

inductive Backing where
  | onDisk (path : Path)
  | inMemory (bytes : List UInt8)
  deriving DecidableEq

structure Resource where
  url : String
  backing : Backing
  deriving DecidableEq

namespace Resource

/-- Exactly one of a path and bytes is wanted. -/
def make? (url : String) : Option Path → Option (List UInt8) → Option Resource
  | some path, none => some ⟨url, .onDisk path⟩
  | none, some bytes => some ⟨url, .inMemory bytes⟩
  | _, _ => none

def ofFile (fs : FileSystem) (p : Path) : Resource :=
  ⟨fs.uri p, .onDisk p⟩

def ofMember (fs : FileSystem) (archive : Path) (member : String) (bytes : List UInt8) : Resource :=
  ⟨"jar:" ++ fs.uri archive ++ "!/" ++ member, .inMemory bytes⟩

def path? (r : Resource) : Option Path :=
  match r.backing with
  | .onDisk path => some path
  | .inMemory _ => none

def read (fs : FileSystem) (r : Resource) : Except FileError (List UInt8) :=
  match r.backing with
  | .onDisk path => fs.read path
  | .inMemory bytes => .ok bytes

def display (r : Resource) : String :=
  "Resource(" ++ quoted r.url ++ ")"

end Resource

end ClassAtlas
