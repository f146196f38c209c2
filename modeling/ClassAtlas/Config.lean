import ClassAtlas.Classpath
import ClassAtlas.FileSystem
import ClassAtlas.Log.Level
import ClassAtlas.Text.Utf8
import ClassAtlas.Toml.Document

/-! Configuration files. Values are kept as they were given; whether they are of use shows when they
are used. -/

namespace ClassAtlas

structure Config where
  logLevel : Toml
  logFile : Option Toml
  logJson : Toml
  version : Toml
  separator : Toml
  entries : Toml

/-- Why there is no configuration. -/
inductive ConfigError where
  | missing (path : Path)
  | file (e : FileError)
  | notUtf8
  | toml (fault : Toml.Fault)
  | noTable (name : String)
  deriving DecidableEq

def ConfigError.message : ConfigError → String
  | missing path => "Configuration file not found: " ++ path.toText
  | file e => e.message
  | notUtf8 => "the file is not UTF-8"
  | toml fault => fault.message
  | noTable name => s!"{name} is not a table"

/-- Why a value of the configuration is of no use. -/
inductive SettingError where
  | wrongType
  | notText
  | longInteger
  | emptySeparator
  | level (e : Log.LevelError)
  deriving DecidableEq

def SettingError.message : SettingError → String
  | wrongType => "a value of another type is needed"
  | notText => "a text is needed"
  | longInteger =>
    s!"Exceeds the limit ({Toml.maxDigits} digits) for integer string conversion; " ++
      "use sys.set_int_max_str_digits() to increase the limit"
  | emptySeparator => "empty separator"
  | level e => e.message

namespace Config

def default : Config :=
  ⟨.str "WARNING", none, .bool false, .str "0.1.0", .str ":", .arr []⟩

/-- Replaces what the sections for logging and for the classpath give. -/
def ofSections (logging classpath : List (String × Toml)) : Config :=
  let or (value : Option Toml) (other : Toml) : Toml := value.getD other
  { logLevel := or (logging.lookup "log_level") default.logLevel
    logFile := logging.lookup "log_file"
    logJson := or (logging.lookup "log_json") default.logJson
    version := or (logging.lookup "version") default.version
    separator := or (classpath.lookup "separator") default.separator
    entries := or (classpath.lookup "entries") default.entries }

/-- A table of the given name; an empty one where there is nothing of the name. -/
def tableOf (name : String) (entries : List (String × Toml)) :
    Except ConfigError (List (String × Toml)) :=
  match entries.lookup name with
  | none => .ok []
  | some (.table entries) => .ok entries
  | some _ => .error (.noTable name)

/-- Other sections and other keys do not count. -/
def ofTable (entries : List (String × Toml)) : Except ConfigError Config := do
  let logging ← tableOf "global" entries
  let classpath ← tableOf "classpath" entries
  return ofSections logging classpath

def ofBytes (bytes : List UInt8) : Except ConfigError Config :=
  match Utf8.decode? bytes with
  | none => .error .notUtf8
  | some text =>
    match Toml.ofText text with
    | .error fault => .error (.toml fault)
    | .ok entries => ofTable entries

/-- Without a path there is nothing to read. -/
def load (fs : FileSystem) (path : Option Path) : Except ConfigError Config :=
  match path with
  | none => .ok default
  | some path =>
    match fs.exists? path with
    | .error e => .error (.file e)
    | .ok false => .error (.missing path)
    | .ok true =>
      match fs.read path with
      | .ok bytes => ofBytes bytes
      | .error e => .error (.file e)

/-- The configuration in use. A path asks for another one; if that fails, the one in use stays. -/
def reload (fs : FileSystem) (path : Option Path) (inUse : Option Config) :
    Except ConfigError Config :=
  match path, inUse with
  | none, some c => .ok c
  | path, _ => load fs path

/-- The texts of a list, the keys of a table, or the characters of a text. -/
def texts : Toml → Except SettingError (List String)
  | .str text => .ok (text.toList.map String.singleton)
  | .arr items => items.mapM fun item =>
    match item with
    | .str text => .ok text
    | _ => .error .wrongType
  | .table entries => .ok (entries.map Prod.fst)
  | _ => .error .wrongType

/-- The classpath with the configured entries behind it. -/
def extend (c : Config) (classpath : Classpath) : Except SettingError Classpath := do
  return classpath.join (.ofTexts (← texts c.entries))

/-- The classpath in a text, with the configured entries behind it. -/
def classpathOf (c : Config) (text : String) : Except SettingError Classpath :=
  match c.separator with
  | .str separator =>
    match Classpath.parse? separator text with
    | some classpath => c.extend classpath
    | none => .error .emptySeparator
  | _ => .error .wrongType

end Config

end ClassAtlas
