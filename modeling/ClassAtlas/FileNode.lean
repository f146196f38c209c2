/-! Trees of folders and files, and the ways through them. A way is a list of names, one for each
step from a folder to an entry of it. -/

namespace ClassAtlas

inductive FileNode where
  | file (bytes : List UInt8)
  | folder (entries : List (String × FileNode))

inductive FileFault where
  | missing
  | exists
  | notFolder
  | isFolder
  | nullCharacter
  | tooLong
  | denied
  deriving DecidableEq, Repr

/-- No name of an entry takes more bytes. -/
def maxNameSize : Nat := 255

namespace FileNode

mutual

/-- How many bytes and nodes there are. -/
def size : FileNode → Nat
  | file bytes => bytes.length + 1
  | folder entries => sizeAll entries + 1

def sizeAll : List (String × FileNode) → Nat
  | [] => 0
  | (_, node) :: entries => size node + sizeAll entries

end

mutual

/-- Every file with its place, whose way there is `place`, innermost first. -/
def filesAt (place : List String) : FileNode → List (List String × List UInt8)
  | file bytes => [(place.reverse, bytes)]
  | folder entries => filesIn place entries

def filesIn (place : List String) : List (String × FileNode) → List (List String × List UInt8)
  | [] => []
  | (name, node) :: entries => filesAt (name :: place) node ++ filesIn place entries

end

/-- Puts a node in the place of the one of that name, or behind the others. -/
def setEntry (name : String) (node : FileNode) : List (String × FileNode) →
    List (String × FileNode)
  | [] => [(name, node)]
  | e :: es => if e.1 = name then (name, node) :: es else e :: setEntry name node es

/-- Puts a node at a place, with folders on the way to it. -/
def insert : (root : FileNode) → (place : List String) → (node : FileNode) → FileNode
  | _, [], node => node
  | folder es, name :: names, node =>
    folder (setEntry name (insert ((es.lookup name).getD (folder [])) names node) es)
  | file bytes, _ :: _, _ => file bytes

/-- Takes the node at a place away. -/
def erase : (root : FileNode) → (place : List String) → FileNode
  | folder es, [name] => folder (es.filter fun e => e.1 ≠ name)
  | folder es, name :: names =>
    match es.lookup name with
    | some node => folder (setEntry name (erase node names) es)
    | none => folder es
  | root, _ => root

/-- The entry of a name. Nothing has a name that is too long. -/
def entry (name : String) (entries : List (String × FileNode)) : Except FileFault FileNode :=
  if maxNameSize < name.utf8ByteSize then .error .tooLong
  else
    match entries.lookup name with
    | some node => .ok node
    | none => .error .missing

/-- The node a trail has come to. Its last step is its first entry. -/
def reached (root : FileNode) (trail : List (String × FileNode)) : FileNode :=
  (trail.head?.map Prod.snd).getD root

/-- The way there. -/
def placeOf (trail : List (String × FileNode)) : List String :=
  (trail.map Prod.fst).reverse

/-- Follows components from a folder, whose way from the root is `trail`, innermost first. Folders
at sealed places are not entered. -/
def walk (root : FileNode) (sealedPlaces : List (List String)) :
    (trail : List (String × FileNode)) → List String → Except FileFault (List (String × FileNode))
  | trail, [] => .ok trail
  | trail, name :: names =>
    match root.reached trail with
    | file _ => .error .notFolder
    | folder es =>
      if placeOf trail ∈ sealedPlaces then .error .denied
      else if name = ".." then walk root sealedPlaces trail.tail names
      else
        match entry name es with
        | .error fault => .error fault
        | .ok node => walk root sealedPlaces ((name, node) :: trail) names

/-- What the file has that a trail has come to. Files at sealed places are not opened. -/
def content (root : FileNode) (sealedPlaces : List (List String))
    (trail : List (String × FileNode)) : Except FileFault (List UInt8) :=
  match root.reached trail with
  | folder _ => .error .isFolder
  | file bytes => if placeOf trail ∈ sealedPlaces then .error .denied else .ok bytes

/-- Puts a file at a place, which must not be sealed. -/
def insertFile (root : FileNode) (sealedPlaces : List (List String)) (place : List String)
    (bytes : List UInt8) : Except FileFault FileNode :=
  if place ∈ sealedPlaces then .error .denied else .ok (root.insert place (file bytes))

/-- Creates the folders of a path that are missing; `done` leads to the one at hand, backwards. -/
def addFolders (root : FileNode) (sealedPlaces : List (List String)) : (done : List String) →
    List String → Except FileFault (FileNode × List String)
  | done, [] => .ok (root, done.reverse)
  | done, name :: names =>
    if done.reverse ∈ sealedPlaces then .error .denied
    else if name = ".." then root.addFolders sealedPlaces done.tail names
    else
      let place := (name :: done).reverse
      match root.walk sealedPlaces [] place with
      | .ok ((_, .file _) :: _) => .error (if names.isEmpty then .exists else .notFolder)
      | .ok _ => root.addFolders sealedPlaces (name :: done) names
      | .error .missing =>
        (root.insert place (folder [])).addFolders sealedPlaces (name :: done) names
      | .error fault => .error fault

end FileNode

end ClassAtlas
