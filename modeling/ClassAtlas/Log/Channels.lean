import ClassAtlas.FileSystem
import ClassAtlas.Log.Call
import ClassAtlas.Text.Utf8

/-! Where the records of each component go. A component has a level of its own and a list of sinks;
all loggers of the component share them. -/

namespace ClassAtlas.Log

inductive Sink where
  | console
  | file (path : Path) (format : Format)
  deriving DecidableEq

structure Channel where
  component : String
  level : Level
  sinks : List Sink

structure Options where
  level : Option String
  file : Option Path
  format : Format
  console : Bool

inductive SetupError where
  | level (e : LevelError)
  | file (e : FileError)
  deriving DecidableEq

/-- All channels, in the order they were first asked for, and the files that records go to. -/
structure Channels where
  list : List Channel
  fs : FileSystem

/-- Setting up channels; what was done before a failure stays done. -/
abbrev Setup := ExceptT SetupError (StateM Channels)

namespace Channels

/-- The components that are there from the start. -/
def start (fs : FileSystem) : Channels :=
  ⟨["reader", "attributes"].map fun component => ⟨component, warning, [.console]⟩, fs⟩

def get? (cs : Channels) (component : String) : Option Channel :=
  cs.list.find? fun c => c.component = component

/-- Makes sure that a component has a channel. -/
def create (component : String) (cs : Channels) : Channels :=
  if (cs.get? component).isSome then cs
  else { cs with list := cs.list ++ [⟨component, 0, []⟩] }

def update (component : String) (f : Channel → Channel) (cs : Channels) : Channels :=
  { cs with list := cs.list.map fun c => if c.component = component then f c else c }

def setLevel (level : Level) (c : Channel) : Channel :=
  { c with level }

/-- A level that is asked for is set. Without one, a channel that has none gets the default. -/
def configureLevel (component : String) (name : Option String) : Setup Unit := do
  match name.map levelOfName with
  | some (.error e) => throw (.level e)
  | some (.ok level) => modify (update component (setLevel level))
  | none => modify (update component fun c => if c.level = 0 then setLevel warning c else c)

/-- Creates the file and its folder where they are missing. -/
def openFile (path : Path) : Setup Unit := do
  let cs ← get
  match cs.fs.makeFolders path.parent >>= fun fs => fs.append path [] with
  | .ok fs => set { cs with fs }
  | .error e => throw (.file e)

/-- Sinks that are there stay as they are, unless a file is asked for: then they are replaced. -/
def configureSinks (component : String) (o : Options) : Setup Unit := do
  let sinks := ((← get).get? component).elim [] Channel.sinks
  if sinks.isEmpty || o.file.isSome then
    let first := if o.console then [Sink.console] else []
    modify (update component fun c => { c with sinks := first })
    if let some path := o.file then
      openFile path
      modify (update component fun c => { c with sinks := first ++ [.file path o.format] })

/-- Sets the channel of a component up. -/
def configure (component : String) (o : Options) : Setup Unit := do
  modify (create component)
  configureLevel component o.level
  configureSinks component o

/-- Gives every channel that is there a level. -/
def setAll (name : String) (cs : Channels) : Except LevelError Channels := do
  let level ← levelOfName name
  return { cs with list := cs.list.map (setLevel level) }

/-- The level of the nearest component above a name. Above it is what stands before its last dot; if
there is no such component, the search goes on before the last dot but one, where a dot next to the
last one does not count. -/
def levelAbove (cs : Channels) : (fuel : Nat) → (name : List Char) → Level
  | 0, _ => warning
  | fuel + 1, name =>
    match (cutLast (· = '.') name).1 with
    | none => warning
    | some above =>
      match cs.list.find? fun c => Record.loggerName c.component = String.ofList above with
      | none => levelAbove cs fuel above.dropLast
      | some c => if c.level = 0 then levelAbove cs fuel above else c.level

/-- The least level a component reports; without a level of its own it is the one above it. -/
def threshold (cs : Channels) (component : String) : Level :=
  let level := (cs.get? component).elim 0 Channel.level
  let name := (Record.loggerName component).toList
  if level = 0 then levelAbove cs (name.length + 1) name else level

/-- Appends a record to the files of its component. -/
def deliver (clock : Clock) (cs : Channels) (r : Record) : Channels :=
  let put (fs : FileSystem) : Sink → FileSystem
    | .console => fs
    | .file path format =>
      match fs.append path (Utf8.encode (r.line clock format)) with
      | .ok fs => fs
      | .error _ => fs
  { cs with fs := (((cs.get? r.component).elim [] Channel.sinks).foldl put cs.fs) }

/-- Delivers a record if its component reports its level. -/
def log (clock : Clock) (r : Record) (cs : Channels) : Channels :=
  if enabled (cs.threshold r.component) r.level then cs.deliver clock r else cs

def hasConsole (cs : Channels) (component : String) : Bool :=
  ((cs.get? component).elim [] Channel.sinks).contains .console

/-- Reports a message with values for its places and what else is added to the record. -/
def report (clock : Clock) (l : Logger) (level : Level) (text : String) (values : List Json)
    (added : List (String × Json)) (cs : Channels) : Except ReportError Channels := do
  match ← l.compose (cs.threshold l.component) (cs.hasConsole l.component)
    ⟨level, text, values, added⟩ with
  | some r => return cs.deliver clock r
  | none => return cs

end Channels

end ClassAtlas.Log
