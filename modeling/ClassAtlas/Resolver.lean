import ClassAtlas.Archive.Reader
import ClassAtlas.Class
import ClassAtlas.Classpath
import ClassAtlas.Error
import ClassAtlas.Log.Journal
import ClassAtlas.Resource

/-! Finding resources on a classpath. Opened archives and the declared names of class files are
kept for later lookups. -/

namespace ClassAtlas

structure Resolver where
  classpath : Classpath
  archives : List (Path × Archive)
  declared : List (Path × String)
  journal : Log.Journal

/-- Lookups that change what a resolver keeps, also when they fail. -/
abbrev Resolving := ExceptT Error (StateM Resolver)

namespace Resolver

def new (classpath : Classpath) (journal : Log.Journal) : Resolver :=
  ⟨classpath, [], [], journal⟩

def report (level : Log.Level) (note : Log.Note) (context : List (String × Json)) :
    Resolving Unit :=
  modify fun r => { r with journal := r.journal.add level note context }

def tell (message : String) : Resolving Unit :=
  report Log.debug (.text message) []

/-- A fault of a broken archive is blamed on its entry; any other is passed on. -/
def archiveFault (path : Path) (wrap : ArchiveError → EntryFault) (e : ArchiveError) : Error :=
  if e.isBroken then .entry path (wrap e) else .archive e

/-- The archive at a path, opened at most once. -/
def openArchive (fs : FileSystem) (path : Path) : Resolving Archive := do
  match (← get).archives.lookup path with
  | some archive => return archive
  | none =>
    match fs.isFile path with
    | .error e => throw (.file e)
    | .ok false => throw (.entry path .noArchive)
    | .ok true =>
      match fs.read path with
      | .error e => throw (.entry path (.cannotOpenFile e))
      | .ok bytes =>
        match Archive.ofBytes bytes with
        | .error e => throw (archiveFault path .cannotOpen e)
        | .ok archive =>
          report Log.debug (.text s!"Opened archive {path.toText}")
            [("members", .int archive.members.length)]
          modify fun r => { r with archives := r.archives ++ [(path, archive)] }
          return archive

/-- Members are found by their exact names. -/
def inArchive (fs : FileSystem) (path : Path) (relative : String) :
    Resolving (Option Resource) := do
  let archive ← openArchive fs path
  match archive.member? relative with
  | none => return none
  | some m =>
    match archive.read m with
    | .error e => throw (archiveFault path (.cannotReadMember relative) e)
    | .ok bytes => return some (.ofMember fs path relative bytes)

/-- The name a class file declares, read at most once. -/
def declaredName (fs : FileSystem) (path : Path) : Resolving String := do
  match (← get).declared.lookup path with
  | some name => return name
  | none =>
    match fs.read path with
    | .error e =>
      if e.fault = .nullCharacter then throw (.file e)
      else throw (.entry path (.cannotReadClass e))
    | .ok bytes =>
      match Class.nameOfBytes bytes with
      | .error e => throw (.entry path (.cannotReadName e))
      | .ok name =>
        modify fun r => { r with declared := r.declared ++ [(path, name)] }
        return name

/-- A class file answers for the class it declares, whatever the file is called. -/
def inClassFile (fs : FileSystem) (path : Path) (relative : String) :
    Resolving (Option Resource) := do
  let name ← declaredName fs path
  return if relative = name ++ ".class" then some (.ofFile fs path) else none

def inFolder (fs : FileSystem) (path : Path) (relative : String) :
    Resolving (Option Resource) := do
  let candidate := path.join (Path.ofText relative)
  match fs.isFile candidate with
  | .error e => throw (.file e)
  | .ok true => return some (.ofFile fs candidate)
  | .ok false => return none

/-- What a classpath entry is, as its suffix says when it is no folder. Where nothing can be told of
an entry, the fault is passed on. -/
def lookup (fs : FileSystem) (path : Path) (relative : String) : Resolving (Option Resource) := do
  let suffix := path.suffix.toLower
  match fs.isFolder path with
  | .error e => throw (.file e)
  | .ok true => inFolder fs path relative
  | .ok false =>
    if suffix = ".jar" || suffix = ".zip" then inArchive fs path relative
    else if suffix = ".class" then inClassFile fs path relative
    else
      match fs.exists? path with
      | .error e => throw (.file e)
      | .ok true => throw (.entry path .unknownKind)
      | .ok false =>
        tell s!"Skipping missing classpath directory {path.toText}"
        return none

/-- The first entry that has the resource answers. -/
def firstOf (fs : FileSystem) (relative : String) : List Path → Resolving (Option Resource)
  | [] => do
    tell s!"{relative} not found on classpath"
    return none
  | path :: paths => do
    match ← lookup fs path relative with
    | some resource =>
      tell s!"Resolved {relative} to {resource.url}"
      return some resource
    | none => firstOf fs relative paths

/-- The first resource at a relative path; leading slashes do not count. -/
def get (fs : FileSystem) (relative : String) : Resolving (Option Resource) := do
  let relative := String.ofList (relative.toList.dropWhile isSlash)
  firstOf fs relative (← MonadState.get).classpath.entries

/-- Forgets the opened archives. -/
def close (r : Resolver) : Resolver :=
  { r with archives := [] }

end Resolver

end ClassAtlas
