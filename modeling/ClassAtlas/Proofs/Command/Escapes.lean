import ClassAtlas.Proofs.Command.Settings
import ClassAtlas.Proofs.Finder.Failures
import ClassAtlas.Proofs.Finder.FindSteady

/-! What becomes of the command. It reports one error or shows a summary, or a failure escapes: from
a configuration without tables, from a setting that cannot be used, from an entry of the classpath
that no expected kind of error is made for, or from a screen that does not take what is to be
shown. -/

namespace ClassAtlas.Console.Screen

variable {screen : Screen} {blocks : List Block}

end ClassAtlas.Console.Screen

namespace ClassAtlas.Command

open Console Finder

variable {screen : Screen} {time : String} {fs : FileSystem} {r : Request} {c : Config}
  {cs : Log.Channels} {classpath : Classpath} {s : Summary} {e : Error} {records : List Log.Record}

def loaded (fs : FileSystem) (r : Request) : Except ConfigError Config :=
  Config.load fs (r.config.map Path.ofText)

/-- Everything a lookup needs has been made of the settings. -/
structure SetUp (fs : FileSystem) (r : Request) (c : Config) (cs : Log.Channels)
    (classpath : Classpath) : Prop where
  load : loaded fs r = .ok c
  log : openLog c r.verbose (.start fs) = .ok cs
  classpath : c.classpathOf r.classpath = .ok classpath

/-- The entries of the classpath in the arguments, where the settings let it be read. -/
def givenEntries (fs : FileSystem) (r : Request) : List Path :=
  match loaded fs r with
  | .error _ => []
  | .ok c =>
    match c.separator with
    | .str separator =>
      ((Classpath.parse? separator r.classpath).map Classpath.entries).getD []
    | _ => []

def OnlyFolders (fs : FileSystem) (r : Request) : Prop :=
  ∀ path ∈ givenEntries fs r, fs.isFolder path = .ok true

instance (fs : FileSystem) (r : Request) : Decidable (OnlyFolders fs r) :=
  inferInstanceAs (Decidable (∀ path ∈ givenEntries fs r, _))

def finderOf (cs : Log.Channels) (classpath : Classpath) : Finder :=
  .new classpath (.new "cli" (cs.threshold "cli"))

/-- Where an entry is asked for the class of a name. -/
def placeOf (name : String) : String :=
  Resolver.stripped (slashes name ++ ".class")

def unwritable : Toml.WriteFault → SettingError
  | .moment => .wrongType
  | .longInteger => .longInteger

/-- A summary is made, but not presented: its report cannot be written or not be printed, or one of
its blocks cannot be shown. -/
inductive Unpresented (screen : Screen) (time : String) (c : Config) (r : Request) (s : Summary) :
    Failure → Prop where
  | version {fault : Toml.WriteFault} (hjson : r.json = true)
    (h : c.version.toJson = .error fault) :
    Unpresented screen time c r s (.setting (unwritable fault))
  | report {version : Json} {message : String} (hjson : r.json = true)
    (hversion : c.version.toJson = .ok version)
    (h : screen.text ((Report.mk version time s).toText Report.defaultIndent ++ "\n") =
      .error message) : Unpresented screen time c r s (.screen message)
  | blocks {message : String} (hjson : r.json = false)
    (h : (screen.showAll (s.blocks ⟨r.methods, r.fields, r.inherits⟩)).fault = some message) :
    Unpresented screen time c r s (.screen message)

/-- The message by which a failure of an expected kind is reported. -/
def complaint (r : Request) : Error → String
  | .notFound name => s!"{name} is not on the classpath {quoted r.classpath}"
  | e => e.message

def configComplaint (fault : ConfigError) : String :=
  "Cannot load configuration: " ++ fault.message

/-- The faults of a configuration that are reported. -/
def Reported (fault : ConfigError) : Prop :=
  (∀ name, fault ≠ .noTable name) ∧ fault ≠ .toml .tooDeep

/-- The ways in which a failure escapes. -/
inductive Escapes (screen : Screen) (time : String) (fs : FileSystem) (r : Request) :
    Failure → Prop where
  | noTable {name : String} (h : loaded fs r = .error (.noTable name)) :
    Escapes screen time fs r (.config (.noTable name))
  | tooDeep (h : loaded fs r = .error (.toml .tooDeep)) :
    Escapes screen time fs r (.config (.toml .tooDeep))
  | noConfig {fault : ConfigError} {message : String} (hload : loaded fs r = .error fault)
    (hreported : Reported fault)
    (h : screen.block (.error (configComplaint fault)) = .error message) :
    Escapes screen time fs r (.screen message)
  | log {c : Config} {e : Failure} (hload : loaded fs r = .ok c)
    (h : LogRefused fs c r.verbose e) : Escapes screen time fs r e
  | classpath {c : Config} {cs : Log.Channels} {fault : SettingError} (hload : loaded fs r = .ok c)
    (hlog : openLog c r.verbose (.start fs) = .ok cs) (h : ClasspathRefused c fault) :
    Escapes screen time fs r (.setting fault)
  | folder {c : Config} {cs : Log.Channels} {classpath : Classpath} {path : Path}
    {fault : FileError} (h : SetUp fs r c cs classpath)
    (hname : isQualifiedName r.name.toList = true) (hpath : path ∈ givenEntries fs r)
    (hconsulted : Resolver.Consulted cs.fs (finderOf cs classpath).resolver (placeOf r.name) path)
    (hprobe : cs.fs.isFile (path.join (Path.ofText (placeOf r.name))) = .error fault) :
    Escapes screen time fs r (.lookup (.file fault))
  | entry {c : Config} {cs : Log.Channels} {classpath : Classpath} {texts : List String}
    {path : Path} {e : Error} (h : SetUp fs r c cs classpath)
    (hname : isQualifiedName r.name.toList = true) (htexts : Config.texts c.entries = .ok texts)
    (hpath : path ∈ texts.map Path.ofText)
    (hconsulted : Resolver.Consulted cs.fs (finderOf cs classpath).resolver (placeOf r.name) path)
    (he : answer (Resolver.lookup cs.fs path (placeOf r.name)) (finderOf cs classpath).resolver =
      .error e) (hforeign : e.kind? = none) : Escapes screen time fs r (.lookup e)
  | complaint {c : Config} {cs : Log.Channels} {classpath : Classpath} {e : Error}
    {message : String} (h : SetUp fs r c cs classpath)
    (he : answer (summarize cs.fs r) (finderOf cs classpath) = .error e) (hkind : e.kind? ≠ none)
    (hscreen : screen.block (.error (complaint r e)) = .error message) :
    Escapes screen time fs r (.screen message)
  | summary {c : Config} {cs : Log.Channels} {classpath : Classpath} {s : Summary} {e : Failure}
    (h : SetUp fs r c cs classpath)
    (hs : answer (summarize cs.fs r) (finderOf cs classpath) = .ok s)
    (he : Unpresented screen time c r s e) : Escapes screen time fs r e

/-- The command has shown one message of an error and nothing else. -/
structure Outcome.Reports (screen : Screen) (o : Outcome) (exitCode : Nat) (text : String) :
    Prop where
  failure : o.failure = none
  exitCode : o.exitCode = exitCode
  shown : o.shown = some [.error text]
  output : screen.block (.error text) = .ok o.output

/-- The command has ended well. No message of an error is shown. -/
structure Outcome.Succeeds (o : Outcome) : Prop where
  failure : o.failure = none
  exitCode : o.exitCode = 0
  shown : ∃ blocks, o.shown = some blocks ∧ ∀ text, .error text ∉ blocks

theorem keepsFolders_of_openLog {verbose : Bool} (h : openLog c verbose (.start fs) = .ok cs) :
    fs.KeepsFolders cs.fs := by
  rcases openLog_outcome c verbose fs with ⟨e, he, -⟩ | ⟨cs', hcs, hkeeps⟩
  · rw [he] at h
    cases h
  · obtain rfl := Except.ok.inj (hcs.symm.trans h)
    exact hkeeps

/-- A folder in the arguments is one still when the log has been opened. -/
theorem SetUp.isFolder (h : SetUp fs r c cs classpath) (hfolders : OnlyFolders fs r) {path : Path}
    (hpath : path ∈ givenEntries fs r) : cs.fs.isFolder path = .ok true :=
  FileSystem.isFolder_of_keepsFolders (keepsFolders_of_openLog h.log) (hfolders path hpath)

/-- The ways in which the command ends where no failure escapes. -/
inductive Ends (screen : Screen) (time : String) (fs : FileSystem) (r : Request) :
    Outcome → Prop where
  | noConfig {fault : ConfigError} {o : Outcome} (hload : loaded fs r = .error fault)
    (h : o.Reports screen 2 ("Cannot load configuration: " ++ fault.message)) :
    Ends screen time fs r o
  | lookup {c : Config} {cs : Log.Channels} (hload : loaded fs r = .ok c)
    (hlog : openLog c r.verbose (.start fs) = .ok cs)
    (h : (lookup screen time c r cs).Succeeds ∨
      ∃ text, (lookup screen time c r cs).Reports screen 1 text) :
    Ends screen time fs r (lookup screen time c r cs)

theorem Ends.failure {o : Outcome} (h : Ends screen time fs r o) : o.failure = none := by
  cases h with
  | noConfig _ h => exact h.failure
  | lookup _ _ h =>
    rcases h with h | ⟨text, h⟩
    · exact h.failure
    · exact h.failure

/-- Settings that the command can use. Their entries are folders, and no log file is wanted. -/
structure Usable (fs : FileSystem) (c : Config) : Prop where
  level : ∃ name level, c.logLevel = .str name ∧ Log.levelOfName name = .ok level
  noFile : c.logFile = none
  separator : ∃ text, c.separator = .str text ∧ text ≠ ""
  entries : ∃ texts, Config.texts c.entries = .ok texts ∧
    ∀ text ∈ texts, fs.isFolder (Path.ofText text) = .ok true
  version : ∃ json, c.version.toJson = .ok json

theorem usable_default (fs : FileSystem) : Usable fs .default where
  level := ⟨"WARNING", Log.warning, rfl, by decide⟩
  noFile := rfl
  separator := ⟨":", rfl, by decide⟩
  entries := ⟨[], rfl, by simp⟩
  version := ⟨.str "0.1.0", rfl⟩

namespace Usable

theorem not_logRefused (h : Usable fs c) (verbose : Bool) (fault : Failure) :
    ¬LogRefused fs c verbose fault := by
  obtain ⟨name, level, hlogLevel, hlevel⟩ := h.level
  have hname : ∃ name level, levelName c verbose = some name ∧
      Log.levelOfName name = .ok level := by
    cases verbose with
    | true => exact ⟨"DEBUG", Log.debug, rfl, by decide⟩
    | false => exact ⟨name, level, by simp [levelName, hlogLevel], hlevel⟩
  obtain ⟨asked, known, hasked, hknown⟩ := hname
  intro hrefused
  cases hrefused with
  | levelNoText hnone => simp [hnone] at hasked
  | noLevel hname hlevel =>
    obtain rfl := Option.some.inj (hname.symm.trans hasked)
    simp [hlevel] at hknown
  | fileNoText _ _ hfile => simp [h.noFile] at hfile
  | noFile _ _ hfile => simp [h.noFile] at hfile

theorem not_classpathRefused (h : Usable fs c) (fault : SettingError) :
    ¬ClasspathRefused c fault := by
  obtain ⟨text, hseparator, hne⟩ := h.separator
  obtain ⟨texts, htexts, -⟩ := h.entries
  intro hrefused
  cases hrefused with
  | separatorNoText hno => exact hno text hseparator
  | noSeparator hempty => exact hne (Toml.str.inj (hseparator.symm.trans hempty))
  | entriesNoTexts _ _ hno => simp [texts_error_iff.mpr ⟨rfl, hno⟩] at htexts

/-- With usable settings, what escapes is the screen's or says that a folder cannot be asked for the
class. -/
theorem escapes (h : Usable fs c) (hload : loaded fs r = .ok c) {fault : Failure}
    (hescapes : Escapes screen time fs r fault) :
    (∃ message, fault = .screen message) ∨ ∃ e, fault = .lookup (.file e) := by
  have hsame {c' : Config} (hload' : loaded fs r = .ok c') : c' = c :=
    Except.ok.inj (hload'.symm.trans hload)
  cases hescapes with
  | noTable hno => simp [hload] at hno
  | tooDeep hdeep => simp [hload] at hdeep
  | noConfig => exact .inl ⟨_, rfl⟩
  | log hload' hrefused =>
    obtain rfl := hsame hload'
    exact absurd hrefused (h.not_logRefused _ _)
  | classpath hload' _ hrefused =>
    obtain rfl := hsame hload'
    exact absurd hrefused (h.not_classpathRefused _)
  | folder => exact .inr ⟨_, rfl⟩
  | entry hsetUp _ htexts hpath _ he =>
    obtain rfl := hsame hsetUp.load
    obtain ⟨texts, htexts', hfolders⟩ := h.entries
    obtain rfl := Except.ok.inj (htexts.symm.trans htexts')
    obtain ⟨text, htext, rfl⟩ := List.mem_map.mp hpath
    have hkeeps := keepsFolders_of_openLog hsetUp.log
    have hfolder := FileSystem.isFolder_of_keepsFolders hkeeps (hfolders text htext)
    rw [Resolver.lookup_of_isFolder hfolder] at he
    obtain ⟨e, -, rfl⟩ := Resolver.inFolder_error_iff.mp he
    exact .inr ⟨e, rfl⟩
  | complaint => exact .inl ⟨_, rfl⟩
  | summary hsetUp _ he =>
    obtain rfl := hsame hsetUp.load
    obtain ⟨json, hjson⟩ := h.version
    cases he with
    | version _ hversion => simp [hjson] at hversion
    | report => exact .inl ⟨_, rfl⟩
    | blocks => exact .inl ⟨_, rfl⟩

end Usable

end ClassAtlas.Command
