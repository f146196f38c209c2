import ClassAtlas.FileNode
import ClassAtlas.Path
import ClassAtlas.Text.Quoted

/-! Files on disk: a tree of them, the current folder, and what can be done at a path. There are no
links, and who may enter a folder or open a file may also write there. -/

namespace ClassAtlas

/-- What is wrong with a file, and the path it was asked for by. -/
structure FileError where
  fault : FileFault
  path : Path
  deriving DecidableEq, Repr

def FileError.message (e : FileError) : String :=
  match e.fault with
  | .missing => "[Errno 2] No such file or directory: " ++ quoted e.path.toText
  | .exists => "[Errno 17] File exists: " ++ quoted e.path.toText
  | .notFolder => "[Errno 20] Not a directory: " ++ quoted e.path.toText
  | .isFolder => "[Errno 21] Is a directory: " ++ quoted e.path.toText
  | .nullCharacter => "embedded null byte"
  | .tooLong => "[Errno 36] File name too long: " ++ quoted e.path.toText
  | .denied => "[Errno 13] Permission denied: " ++ quoted e.path.toText

/-- A tree, the folder that relative paths start from, and the places of the folders that may not be
entered and of the files that may not be opened. -/
structure FileSystem where
  root : FileNode
  cwd : List String
  sealedPlaces : List (List String)

namespace FileSystem

def empty (cwd : List String) : FileSystem :=
  ⟨FileNode.insert (.folder []) cwd (.folder []), cwd, []⟩

/-- Every file with its place from the root on. -/
def files (fs : FileSystem) : List (List String × List UInt8) :=
  fs.root.filesAt []

/-- The components of a path from the root on. -/
def components (fs : FileSystem) (p : Path) : List String :=
  if p.root = .relative then fs.cwd ++ p.parts else p.parts

def hasNull (p : Path) : Bool :=
  p.parts.any fun part => part.toList.any fun c => c.toNat == 0

/-- No path takes more bytes, with one behind it that ends it. -/
def maxPathSize : Nat := 4096

/-- The way to a node, innermost first. -/
def trail (fs : FileSystem) (p : Path) : Except FileFault (List (String × FileNode)) :=
  if hasNull p then .error .nullCharacter
  else if maxPathSize < p.size then .error .tooLong
  else fs.root.walk fs.sealedPlaces [] (fs.components p)

def node (fs : FileSystem) (p : Path) : Except FileFault FileNode :=
  (fs.trail p).map fs.root.reached

def fail {α : Type} (fault : FileFault) (p : Path) : Except FileError α :=
  .error ⟨fault, p⟩

/-- What there is at a path, if anything. That cannot be told of a path that is too long or goes
through a sealed folder. -/
def probe (fs : FileSystem) (p : Path) : Except FileError (Option FileNode) :=
  match fs.node p with
  | .ok node => .ok (some node)
  | .error .tooLong => fail .tooLong p
  | .error .denied => fail .denied p
  | .error _ => .ok none

def exists? (fs : FileSystem) (p : Path) : Except FileError Bool :=
  (fs.probe p).map Option.isSome

def isFolder (fs : FileSystem) (p : Path) : Except FileError Bool :=
  (fs.probe p).map fun
    | some (.folder _) => true
    | _ => false

def isFile (fs : FileSystem) (p : Path) : Except FileError Bool :=
  (fs.probe p).map fun
    | some (.file _) => true
    | _ => false

def read (fs : FileSystem) (p : Path) : Except FileError (List UInt8) :=
  ((fs.trail p).bind (fs.root.content fs.sealedPlaces)).mapError (⟨·, p⟩)

/-- The address of a path, with `..` removed. -/
def uri (fs : FileSystem) (p : Path) : String :=
  (p.absolute fs.cwd).uri

def makeFolders (fs : FileSystem) (p : Path) : Except FileError FileSystem :=
  if hasNull p then fail .nullCharacter p
  else if maxPathSize < p.size then fail .tooLong p
  else
    match fs.root.addFolders fs.sealedPlaces [] (fs.components p) with
    | .ok (root, _) => .ok { fs with root }
    | .error fault => fail fault p

/-- Puts a new file at a path, whose folder is created where it is missing. -/
def write (fs : FileSystem) (p : Path) (bytes : List UInt8) : Except FileError FileSystem := do
  let fs ← fs.makeFolders p.parent
  match fs.trail p.parent with
  | .error fault => fail fault p
  | .ok trail =>
    if hasNull p then fail .nullCharacter p
    else
      match fs.isFolder p with
      | .error e => .error e
      | .ok true => fail .isFolder p
      | .ok false =>
        let place := FileNode.placeOf trail ++ [p.name]
        match fs.root.insertFile fs.sealedPlaces place bytes with
        | .error fault => fail fault p
        | .ok root => return { fs with root }

/-- Adds bytes to the end of a file, which is created where it is missing. -/
def append (fs : FileSystem) (p : Path) (bytes : List UInt8) : Except FileError FileSystem :=
  match fs.node p with
  | .ok (.file old) => fs.write p (old ++ bytes)
  | .ok (.folder _) => fail .isFolder p
  | .error .missing => fs.write p bytes
  | .error fault => fail fault p

/-- Takes away a file, or a folder with all that is in it. -/
def delete (fs : FileSystem) (p : Path) : Except FileError FileSystem :=
  match fs.trail p with
  | .error fault => fail fault p
  | .ok trail =>
    let place := FileNode.placeOf trail
    let sealedPlaces := fs.sealedPlaces.filter fun other => !place.isPrefixOf other
    .ok { fs with root := fs.root.erase place, sealedPlaces }

end FileSystem

end ClassAtlas
