import ClassAtlas.Command.Run
import ClassAtlas.Proofs.Log.Channels
import ClassAtlas.Proofs.Outcomes

/-! Settings of a configuration that cannot be used, and where it shows: when the log is opened, or
when the classpath is put together. Opening the log leaves all folders where they are. -/

namespace ClassAtlas

namespace Log.Channels

variable {cs : Channels} {fs : FileSystem} {path : Path} {name : String} {level : Level}

/-- The channels there are when the command has set up its own. -/
def withCommand (level : Level) (sinks : List Sink) (fs : FileSystem) : Channels :=
  ⟨(start fs).list ++ [⟨"cli", level, sinks⟩], fs⟩

theorem configureLevel_eq (component : String) (h : levelOfName name = .ok level) :
    configureLevel component (some name) = modify (update component (setLevel level)) := by
  simp [configureLevel, h]

theorem configure_console (fs : FileSystem) (format : Format) (h : levelOfName name = .ok level) :
    (configure "cli" ⟨some name, none, format, true⟩).run.run ((start fs).create "cli") =
      (.ok (), withCommand level [.console] fs) := by
  rw [configure, configureLevel_eq _ h]
  rfl

theorem configure_file (fs : FileSystem) (path : Path) (format : Format)
    (h : levelOfName name = .ok level) :
    (configure "cli" ⟨some name, some path, format, true⟩).run.run ((start fs).create "cli") =
      match fs.prepare path with
      | .ok fs' => (.ok (), withCommand level [.console, .file path format] fs')
      | .error e => (.error (.file e), withCommand level [.console] fs) := by
  have hrun :
    (configure "cli" ⟨some name, some path, format, true⟩).run.run ((start fs).create "cli") =
      (openFile path >>= fun _ => modify (update "cli" fun c =>
        { c with sinks := [.console] ++ [.file path format] })).run.run
          (withCommand level [.console] fs) := by
    rw [configure, configureLevel_eq _ h]
    rfl
  have hfs : (withCommand level [.console] fs).fs = fs := rfl
  rw [hrun, ExceptT.run_bind, StateT.run_bind, openFile_eq, hfs]
  cases fs.prepare path <;> rfl

end Log.Channels

namespace Command

open Log Channels

variable {c : Config} {verbose : Bool} {fs : FileSystem} {cs : Channels} {name : String}
  {level : Level} {e : Failure}

/-- The name of the level that is asked for. Being verbose asks for one whatever the settings
say. -/
def levelName (c : Config) (verbose : Bool) : Option String :=
  if verbose then some "DEBUG"
  else match c.logLevel with
    | .str name => some name
    | _ => none

/-- The log file that is asked for. The level is looked at first. -/
def fileAskedFor (c : Config) (name : String) : Except Failure (Option Path) :=
  match levelOfName name, c.logFile with
  | .error e, _ => .error (.setting (.level e))
  | .ok _, none => .ok none
  | .ok _, some (.str path) => .ok (some (Path.ofText path))
  | .ok _, some _ => .error (.setting .wrongType)

def formatOf (c : Config) : Format :=
  if c.logJson.isOn then .json else .text

def logWith (c : Config) (name : String) (file : Option Path) (cs : Channels) :
    Except Failure Channels :=
  match (configure "cli" ⟨some name, file, formatOf c, true⟩).run.run (cs.create "cli") with
  | (.error (.level e), _) => .error (.setting (.level e))
  | (.error (.file e), _) => .error (.file e)
  | (.ok (), cs) =>
    match cs.setAll name with
    | .ok cs => .ok cs
    | .error e => .error (.setting (.level e))

theorem openLog_of_levelName (c : Config) (verbose : Bool) (cs : Channels) : openLog c verbose cs =
    match levelName c verbose with
    | none => .error (.setting .notText)
    | some name => openLog { c with logLevel := .str name } false cs := by
  cases verbose with
  | true => simp only [openLog, levelName, ↓reduceIte, Bool.false_eq_true, pure_bind]
  | false =>
    cases hlevel : c.logLevel <;>
      simp only [openLog, levelName, ↓reduceIte, Bool.false_eq_true, hlevel, pure_bind] <;> rfl

theorem openLog_eq (c : Config) (verbose : Bool) (cs : Channels) : openLog c verbose cs =
    match levelName c verbose with
    | none => .error (.setting .notText)
    | some name => fileAskedFor c name >>= fun file => logWith c name file cs := by
  -- From here on the level is a text of the settings and nothing is verbose.
  rw [openLog_of_levelName]
  cases levelName c verbose with
  | none => rfl
  | some name =>
    simp only [openLog, fileAskedFor, logWith, formatOf, Bool.false_eq_true, ↓reduceIte,
      bind, Except.bind, pure, Except.pure, throw, throwThe, MonadExcept.throw, MonadExceptOf.throw]
    cases levelOfName name with
    | error e => rfl
    | ok level =>
      cases c.logFile with
      | none => rfl
      | some value => cases value <;> rfl

theorem setAll_withCommand (h : levelOfName name = .ok level) (sinks : List Sink)
    (fs : FileSystem) :
    ∃ cs, (withCommand level sinks fs).setAll name = .ok cs ∧ cs.fs = fs :=
  ⟨_, setAll_eq h _, rfl⟩

theorem logWith_of_error (c : Config) (h : levelOfName name = .ok level) {path : Path}
    {e : FileError} (he : fs.prepare path = .error e) :
      logWith c name (some path) (.start fs) = .error (.file e) := by
  rw [logWith, configure_file fs path _ h, he]

/-- With a level that is known the log is opened, unless a file is asked for that cannot be
prepared. -/
theorem logWith_outcome (c : Config) (h : levelOfName name = .ok level) (file : Option Path)
    (fs : FileSystem) :
    (∃ cs, logWith c name file (.start fs) = .ok cs ∧ fs.KeepsFolders cs.fs) ∨
    ∃ path e, file = some path ∧ fs.prepare path = .error e ∧
      logWith c name file (.start fs) = .error (.file e) := by
  cases file with
  | none =>
    obtain ⟨cs, hcs, hfs⟩ := setAll_withCommand h [.console] fs
    refine .inl ⟨cs, ?_, ⟨by rw [hfs], by rw [hfs], hfs ▸ .refl _⟩⟩
    rw [logWith, configure_console fs _ h]
    dsimp only
    rw [hcs]
  | some path =>
    cases hprepare : fs.prepare path with
    | ok fs' =>
      obtain ⟨cs, hcs, hfs⟩ := setAll_withCommand h [.console, .file path (formatOf c)] fs'
      refine .inl ⟨cs, ?_, hfs ▸ FileSystem.keepsFolders_prepare hprepare⟩
      rw [logWith, configure_file fs path _ h, hprepare]
      dsimp only
      rw [hcs]
    | error e => exact .inr ⟨path, e, rfl, hprepare, logWith_of_error c h hprepare⟩

/-- The settings no log can be opened with, each with its failure. -/
inductive LogRefused (fs : FileSystem) (c : Config) (verbose : Bool) : Failure → Prop where
  | levelNoText (h : levelName c verbose = none) : LogRefused fs c verbose (.setting .notText)
  | noLevel {name : String} {e : LevelError} (hname : levelName c verbose = some name)
    (h : levelOfName name = .error e) : LogRefused fs c verbose (.setting (.level e))
  | fileNoText {name : String} {level : Level} {value : Toml}
    (hname : levelName c verbose = some name) (hlevel : levelOfName name = .ok level)
    (hfile : c.logFile = some value) (h : ∀ path, value ≠ .str path) :
      LogRefused fs c verbose (.setting .wrongType)
  | noFile {name path : String} {level : Level} {e : FileError}
    (hname : levelName c verbose = some name) (hlevel : levelOfName name = .ok level)
    (hfile : c.logFile = some (.str path)) (h : fs.prepare (Path.ofText path) = .error e) :
      LogRefused fs c verbose (.file e)

theorem fileAskedFor_outcome (fs : FileSystem) (hname : levelName c verbose = some name) :
    (∃ e, fileAskedFor c name = .error e ∧ LogRefused fs c verbose e) ∨
    ∃ level file, levelOfName name = .ok level ∧ fileAskedFor c name = .ok file ∧
      ∀ path, file = some path → ∃ text, c.logFile = some (.str text) ∧
        path = Path.ofText text := by
  unfold fileAskedFor
  cases hlevel : levelOfName name with
  | error fault => exact .inl ⟨_, rfl, .noLevel hname hlevel⟩
  | ok level =>
    cases hfile : c.logFile with
    | none => exact .inr ⟨level, none, rfl, rfl, by simp⟩
    | some value =>
      cases value
      case str text => exact .inr ⟨level, _, rfl, rfl, by simp⟩
      all_goals exact .inl ⟨_, rfl, .fileNoText hname hlevel hfile (by simp)⟩

theorem openLog_outcome (c : Config) (verbose : Bool) (fs : FileSystem) :
    (∃ e, openLog c verbose (.start fs) = .error e ∧ LogRefused fs c verbose e) ∨
    ∃ cs, openLog c verbose (.start fs) = .ok cs ∧ fs.KeepsFolders cs.fs := by
  rw [openLog_eq]
  cases hname : levelName c verbose with
  | none => exact .inl ⟨_, rfl, .levelNoText hname⟩
  | some name =>
    dsimp only
    rcases fileAskedFor_outcome fs hname with ⟨e, hfile, hrefused⟩ |
      ⟨level, file, hlevel, hfile, hpath⟩
    · simp only [hfile, bind, Except.bind]
      exact .inl ⟨e, rfl, hrefused⟩
    · simp only [hfile, bind, Except.bind]
      rcases logWith_outcome c hlevel file fs with ⟨cs, hlog, hkeeps⟩ |
        ⟨path, e, rfl, hprepare, hlog⟩
      · exact .inr ⟨cs, hlog, hkeeps⟩
      · obtain ⟨text, htext, rfl⟩ := hpath _ rfl
        exact .inl ⟨_, hlog, .noFile hname hlevel htext hprepare⟩

/-- Values that hold no texts: a list does if each of its items is one. -/
def NoTexts : Toml → Prop
  | .str _ => False
  | .table _ => False
  | .arr items => ∃ item ∈ items, ∀ text, item ≠ .str text
  | _ => True

theorem textOf_eq_error_iff {item : Toml} {fault : SettingError} : (match item with
      | .str text => .ok text
      | _ => .error .wrongType : Except SettingError String) = .error fault ↔
    fault = .wrongType ∧ ∀ text, item ≠ .str text := by
  cases item <;> simp [eq_comm]

theorem texts_error_iff {value : Toml} {fault : SettingError} :
    Config.texts value = .error fault ↔ fault = .wrongType ∧ NoTexts value := by
  cases value
  case arr items =>
    have hfirst (fault : SettingError) (h : Config.texts (.arr items) = .error fault) :
        fault = .wrongType ∧ NoTexts (.arr items) := by
      obtain ⟨before, item, behind, rfl, -, hitem⟩ := mapM_eq_error_iff.mp h
      obtain ⟨rfl, hno⟩ := textOf_eq_error_iff.mp hitem
      exact ⟨rfl, item, by simp, hno⟩
    constructor
    · exact hfirst fault
    · rintro ⟨rfl, item, hitem, hno⟩
      cases htexts : Config.texts (.arr items) with
      | error fault => rw [(hfirst fault htexts).1]
      | ok texts =>
        obtain ⟨hlength, hall⟩ := List.forall₂_iff_get.mp (mapM_eq_ok_iff.mp htexts)
        obtain ⟨i, hi, rfl⟩ := List.getElem_of_mem hitem
        have htext := hall i hi (hlength ▸ hi)
        have hrefused := textOf_eq_error_iff.mpr ⟨rfl, hno⟩
        exact absurd (htext.symm.trans hrefused) (by simp)
  all_goals simp [Config.texts, NoTexts, eq_comm]

/-- The settings no classpath can be made with, each with its failure. -/
inductive ClasspathRefused (c : Config) : SettingError → Prop where
  | separatorNoText (h : ∀ text, c.separator ≠ .str text) : ClasspathRefused c .wrongType
  | noSeparator (h : c.separator = .str "") : ClasspathRefused c .emptySeparator
  | entriesNoTexts {text : String} (hseparator : c.separator = .str text) (hne : text ≠ "")
    (h : NoTexts c.entries) : ClasspathRefused c .wrongType

end Command

end ClassAtlas
