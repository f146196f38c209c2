import ClassAtlas.Command.Arguments
import ClassAtlas.Config
import ClassAtlas.Console.Screen
import ClassAtlas.Display
import ClassAtlas.Hierarchy.Build
import ClassAtlas.Log.Channels
import ClassAtlas.Report

/-! The command: it looks one class up and shows its summary, or prints it as JSON. -/

namespace ClassAtlas.Command

open Console

/-- What ends the command without a message of its own. -/
inductive Failure where
  | lookup (e : Error)
  | setting (e : SettingError)
  | config (e : ConfigError)
  | file (e : FileError)
  | screen (message : String)

def Failure.message : Failure → String
  | lookup e => e.message
  | setting e => e.message
  | config e => e.message
  | file e => e.message
  | screen message => message

/-- Nothing has been shown, not even nothing, where the arguments were not understood. Records
wait to be delivered, the first one first. -/
structure Outcome where
  exitCode : Nat
  shown : Option (List Block)
  output : String
  failure : Option Failure
  channels : Log.Channels
  records : List Log.Record

namespace Outcome

/-- The command has not begun its work. -/
def idle (exitCode : Nat) (failure : Option Failure) (fs : FileSystem) : Outcome :=
  ⟨exitCode, none, "", failure, .start fs, []⟩

def fail (e : Failure) (channels : Log.Channels) (records : List Log.Record) : Outcome :=
  ⟨1, some [], "", some e, channels, records⟩

/-- The command shows something and ends, at the latest where something cannot be shown. -/
def done (screen : Screen) (exitCode : Nat) (blocks : List Block) (channels : Log.Channels)
    (records : List Log.Record) : Outcome :=
  let s := screen.showAll blocks
  match s.fault with
  | none => ⟨exitCode, some s.blocks, s.output, none, channels, records⟩
  | some message => ⟨1, some s.blocks, s.output, some (.screen message), channels, records⟩

/-- The files after all records have been written. -/
def files (clock : Log.Clock) (o : Outcome) : FileSystem :=
  (o.records.foldl (Log.Channels.deliver clock) o.channels).fs

end Outcome

/-- What is wanted of one class. -/
structure Request where
  classpath : String
  name : String
  methods : Bool
  fields : Bool
  inherits : Bool
  json : Bool
  verbose : Bool
  config : Option String

/-- Opens the log that the configuration asks for, with the level of the records it takes. -/
def openLog (c : Config) (verbose : Bool) (channels : Log.Channels) :
    Except Failure Log.Channels := do
  let level ←
    if verbose then pure "DEBUG"
    else match c.logLevel with
      | .str name => pure name
      | _ => throw (.setting .notText)
  let channels := channels.create "cli"
  let file ←
    match Log.levelOfName level, c.logFile with
    | .error e, _ => throw (.setting (.level e))
    | .ok _, none => pure none
    | .ok _, some (.str path) => pure (some (Path.ofText path))
    | .ok _, some _ => throw (.setting .wrongType)
  let options : Log.Options := ⟨some level, file, if c.logJson.isOn then .json else .text, true⟩
  match (Log.Channels.configure "cli" options).run.run channels with
  | (.error (.level e), _) => throw (.setting (.level e))
  | (.error (.file e), _) => throw (.file e)
  | (.ok (), channels) =>
    match channels.setAll level with
    | .ok channels => return channels
    | .error e => throw (.setting (.level e))

/-- Finds the class and, if wanted, its hierarchy. -/
def summarize (fs : FileSystem) (r : Request) : Finding Summary := do
  let c ← Finder.find fs (.plain r.name)
  let hierarchy ←
    if r.inherits then some <$> Hierarchy.build fs c else pure none
  liftExcept (Summary.ofHierarchy c.toClass hierarchy)

/-- A record of an error, with the kind and the text of it. -/
def errorRecord (l : Log.Logger) (name kind : String) (e : Error) : Log.Record :=
  { l.record Log.error (.text s!"Decoding {name} failed") [] with
    trouble := .failure (Log.describeFailure ("classlens.core.errors." ++ kind) e.message) }

/-- Shows a summary in the form that is wanted. -/
def present (screen : Screen) (time : String) (c : Config) (r : Request) (s : Summary)
    (channels : Log.Channels) (records : List Log.Record) : Outcome :=
  if r.json then
    match c.version.toJson with
    | .ok version =>
      let report : Report := ⟨version, time, s⟩
      match screen.text (report.toText Report.defaultIndent ++ "\n") with
      | .ok output => ⟨0, some [], output, none, channels, records⟩
      | .error message => .fail (.screen message) channels records
    | .error .moment => .fail (.setting .wrongType) channels records
    | .error .longInteger => .fail (.setting .longInteger) channels records
  else .done screen 0 (s.blocks ⟨r.methods, r.fields, r.inherits⟩) channels records

/-- Looks the class up with everything set up. -/
def lookup (screen : Screen) (time : String) (c : Config) (r : Request)
    (channels : Log.Channels) : Outcome :=
  match c.classpathOf r.classpath with
  | .error e => .fail (.setting e) channels []
  | .ok classpath =>
    let journal := Log.Journal.new "cli" (channels.threshold "cli")
    let (result, finder) := (summarize channels.fs r).run.run (.new classpath journal)
    let records := finder.journal.records.reverse
    match result with
    | .ok s => present screen time c r s channels records
    | .error (.notFound name) =>
      let text := s!"{name} is not on the classpath {quoted r.classpath}"
      .done screen 1 [.error text] channels records
    | .error e =>
      match e.kind? with
      | some kind =>
        let last := errorRecord finder.journal.toLogger r.name kind e
        let last := if Log.enabled journal.threshold last.level then [last] else []
        .done screen 1 [.error e.message] channels (records ++ last)
      | none => .fail (.lookup e) channels records

/-- Reads the configuration and opens the log. -/
def start (screen : Screen) (time : String) (fs : FileSystem) (r : Request) : Outcome :=
  match Config.load fs (r.config.map Path.ofText) with
  | .error (.noTable name) => .fail (.config (.noTable name)) (.start fs) []
  | .error (.toml .tooDeep) => .fail (.config (.toml .tooDeep)) (.start fs) []
  | .error e =>
    .done screen 2 [.error ("Cannot load configuration: " ++ e.message)] (.start fs) []
  | .ok c =>
    match openLog c r.verbose (.start fs) with
    | .error e => .fail e (.start fs) []
    | .ok channels => lookup screen time c r channels

/-- A path that ends in a slash or a dot cannot lead to a file. -/
def endsInName (path : String) : Bool :=
  match (pieces (· == '/') path.toList).getLast? with
  | some name => name ≠ [] ∧ name ≠ ['.']
  | none => false

/-- Whether a configuration path leads to a file that may be opened. -/
def checkConfig (fs : FileSystem) : Option String → Except FileFault Bool
  | none => .ok true
  | some path =>
    match fs.read (Path.ofText path) with
    | .ok _ => .ok (endsInName path)
    | .error ⟨.nullCharacter, _⟩ => .error .nullCharacter
    | .error _ => .ok false

def Arguments.request (a : Arguments) (classpath name : String) : Request :=
  ⟨classpath, name, a.has .methods, a.has .fields, a.has .inherits, a.has .json, a.has .verbose,
    a.config⟩

/-- Runs the command. The time is for the report. -/
def run (screen : Screen) (time : String) (fs : FileSystem) (args : List String) : Outcome :=
  match Arguments.ofList? args with
  | none => .idle 2 none fs
  | some a =>
    if a.has .help then .idle 0 none fs
    else
      match checkConfig fs a.config, a.positional with
      | .error fault, _ => .idle 1 (some (.file ⟨fault, Path.ofText (a.config.getD "")⟩)) fs
      | .ok true, [classpath, name] => start screen time fs (a.request classpath name)
      | .ok _, _ => .idle 2 none fs

end ClassAtlas.Command
