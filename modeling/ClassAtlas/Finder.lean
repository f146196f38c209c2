import ClassAtlas.Name.Map
import ClassAtlas.Resolver

/-! Finding classes by name. A class that was found is kept and answers every later lookup of its
name. -/

namespace ClassAtlas

/-- A class and the slashed name it was found under. One decoded from bytes at hand has none. -/
structure FoundClass extends Class where
  foundAs : Option String

structure Finder where
  resolver : Resolver
  cache : NameMap FoundClass

/-- Lookups that change what a finder keeps, also when they fail. -/
abbrev Finding := ExceptT Error (StateM Finder)

/-- The class in the bytes at hand. -/
def FoundClass.ofBytes (bytes : List UInt8) : Except Error FoundClass :=
  match Class.ofBytes bytes with
  | .ok c => .ok ⟨c, none⟩
  | .error e => .error (.decode e)

/-- The class in a file, which is decoded anew each time. -/
def FoundClass.ofFile (fs : FileSystem) (path : Path) : Except Error FoundClass :=
  match fs.read path with
  | .ok bytes => ofBytes bytes
  | .error e => .error (.file e)

namespace Finder

def new (classpath : Classpath) (journal : Log.Journal) : Finder :=
  ⟨.new classpath journal, .empty⟩

def journal (f : Finder) : Log.Journal :=
  f.resolver.journal

def setOperation (operation : Option String) (f : Finder) : Finder :=
  { f with resolver := { f.resolver with journal := { f.journal with operation } } }

/-- Lets the resolver work. -/
def resolving {α : Type} (x : Resolving α) : Finding α :=
  ExceptT.mk fun f =>
    let (result, resolver) := x.run.run f.resolver
    (result, { f with resolver })

/-- Runs something under an operation name; afterwards the one before it is back. -/
def within {α : Type} (operation : String) (x : Finding α) : Finding α :=
  ExceptT.mk fun f =>
    let (result, f') := x.run.run (f.setOperation (some operation))
    (result, f'.setOperation f.journal.operation)

def report (level : Log.Level) (note : Log.Note) (context : List (String × Json)) :
    Finding Unit :=
  resolving (Resolver.report level note context)

def tell (message : String) : Finding Unit :=
  report Log.debug (.text message) []

/-- Reports the start and the end of something, also where it fails. -/
def timed {α : Type} (label : String) (x : Finding α) : Finding α := do
  tell ("Started: " ++ label)
  ExceptT.mk do
    let result ← x.run
    let _ ← (report Log.info (.completed label) []).run
    return result

/-- A class that is not there is no failure. -/
def optional {α : Type} (x : Finding α) : Finding (Option α) :=
  tryCatch (some <$> x) fun e =>
    match e with
    | .notFound _ => return none
    | e => throw e

def read (fs : FileSystem) (resource : Resource) : Finding (List UInt8) :=
  match resource.read fs with
  | .ok bytes => return bytes
  | .error e => throw (.entry e.path (.cannotRead e))

/-- Looks a name up on the classpath. Only what could be decoded is kept. -/
def fetch (fs : FileSystem) (name : QualifiedName) : Finding FoundClass := do
  tell s!"Cache miss for {name.normalized}"
  match ← resolving (Resolver.get fs name.resourcePath) with
  | none => throw (.notFound name.normalized)
  | some resource =>
    match Class.ofBytes (← read fs resource) with
    | .error e => throw (.decode e)
    | .ok c =>
      if c.thisName ≠ name.normalized then
        report Log.warning
          (.text s!"{resource.url} declares {c.thisName}, expected {name.normalized}") []
      let found : FoundClass := ⟨c, some name.normalized⟩
      modify fun f => { f with cache := f.cache.put (.owned name) found }
      report Log.debug (.text s!"Cached {name.normalized}") [("source", .str resource.url)]
      return found

/-- The class of a name. What is no qualified name is the name of no class. -/
def find (fs : FileSystem) (name : NameLike) : Finding FoundClass := do
  match name.toSpan with
  | .error _ => throw (.notFound name.text)
  | .ok span =>
    let name := span.toOwned
    match (← get).cache.get? (.owned name) with
    | some found => return found
    | none => within s!"find {name.normalized}" (fetch fs name)

def findSuper (fs : FileSystem) (c : Class) : Finding FoundClass :=
  match c.superName with
  | some name => find fs (.plain name)
  | none => throw (.notFound s!"superclass of {c.thisName}")

/-- The classes of the names that are found. -/
def findPresent (fs : FileSystem) (owner : Class) : List String → Finding (List FoundClass)
  | [] => return []
  | name :: names => do
    match ← optional (find fs (.plain name)) with
    | some found => return found :: (← findPresent fs owner names)
    | none =>
      tell s!"Interface {name} of {owner.thisName} not on classpath"
      findPresent fs owner names

/-- The directly implemented interfaces that are found, in declared order. -/
def findInterfaces (fs : FileSystem) (c : Class) : Finding (List FoundClass) :=
  match c.interfaces with
  | .ok names => findPresent fs c names
  | .error e => throw (.decode e)

/-- Whether a name has been found before. -/
def isCached (f : Finder) (name : NameLike) : Except NameError Bool := do
  return f.cache.contains (.span (← name.toSpan))

def close (f : Finder) : Finder :=
  { f with resolver := f.resolver.close }

/-- No fewer than the classes that can still be found: each has a file, a member of an archive or
a place among the classes found before. -/
def capacity (fs : FileSystem) (f : Finder) : Nat :=
  f.resolver.archives.foldr (fun a n => a.2.members.length + n) (fs.root.size + f.cache.size)

end Finder

end ClassAtlas
