import ClassAtlas.Command.Run
import ClassAtlas.Console.Plain
import Std.Time.Format

/-! The program: it takes a picture of the files that the command can reach, runs the command on it,
prints what is shown and writes back what has changed. -/

namespace ClassAtlas.Command

def usage : String :=
  "Usage: classatlas [OPTIONS] CLASSPATH NAME\n\n" ++
    "  CLASSPATH is a list of directories, .jar/.zip archives and .class files. NAME is a\n" ++
    "  qualified class name with '/' or '.' between its parts.\n\n" ++
    "Options:\n" ++
    "  -m, --methods      List the methods the class declares.\n" ++
    "  -f, --fields       List the fields the class declares.\n" ++
    "  -i, --inherits     List the ancestors found on the classpath, nearest first.\n" ++
    "  --json             Print the summary as JSON.\n" ++
    "  -c, --config FILE  Read the configuration from a TOML file.\n" ++
    "  -v, --verbose      Log everything.\n" ++
    "  --help             Show this text.\n"

/-- What the disk has at a place, with the places at it and below it that are sealed. -/
partial def diskNode (place : List String) : IO (Option FileNode × List (List String)) := do
  let path := (← IO.currentDir) / ("/" ++ "/".intercalate place)
  if ← path.isDir then
    if !(← (path / ".").pathExists) then return (some (.folder []), [place])
    let mut entries : List (String × FileNode) := []
    let mut closed : List (List String) := []
    for entry in ← path.readDir do
      let (node, below) ← diskNode (place ++ [entry.fileName])
      entries := (node.map fun node => (entry.fileName, node)).toList ++ entries
      closed := below ++ closed
    return (some (.folder entries), closed)
  else if ← path.pathExists then
    try return (some (.file (← IO.FS.readBinFile path).toList), [])
    catch _ => return (some (.file []), [place])
  else return (none, [])

/-- Adds to a picture what the disk has at a path. -/
def addPath (fs : FileSystem) (path : Path) : IO FileSystem := do
  let place := path.absoluteParts fs.cwd
  match ← diskNode place with
  | (some node, closed) =>
    return { fs with root := fs.root.insert place node, sealedPlaces := closed ++ fs.sealedPlaces }
  | (none, _) => return fs

/-- The paths that a run looks at beside the configuration: its classpath and its log file. -/
def pathsOf (c : Config) (classpath : String) : List Path :=
  let entries := ((c.classpathOf classpath).toOption.map Classpath.entries).getD []
  match c.logFile with
  | some (.str path) => entries ++ [Path.ofText path]
  | _ => entries

/-- A picture of the files that a run with the given arguments looks at. -/
def picture (args : List String) : IO FileSystem := do
  let cwd := (Path.ofText (← IO.currentDir).toString).parts
  let fs := FileSystem.empty cwd
  match Arguments.ofList? args with
  | none => return fs
  | some a =>
    let config := a.config.map Path.ofText
    let fs ← config.elim (pure fs) (addPath fs)
    match Config.load fs config, a.positional with
    | .ok c, [classpath, _] => (pathsOf c classpath).foldlM addPath fs
    | _, _ => return fs

/-- Writes the files that are not as they were. -/
def writeChanges (before after : FileSystem) : IO Unit := do
  let old := before.files
  for (place, bytes) in after.files do
    if old.lookup place != some bytes then
      IO.FS.createDirAll ("/" ++ "/".intercalate place.dropLast)
      IO.FS.writeBinFile ("/" ++ "/".intercalate place) ⟨bytes.toArray⟩

def utc (now : Std.Time.DateTime) : String :=
  (Std.Time.DateTime.ofTimestampWithZone now.toTimestamp Std.Time.TimeZone.UTC).format
    "uuuu-MM-dd'T'HH:mm:ss.SSSSSSxxx"

/-- Milliseconds as seconds with three decimal places. -/
def seconds (ms : Nat) : String :=
  s!"{ms / 1000}.{Toml.padded 3 (ms % 1000)}"

def printOutcome (o : Outcome) : IO Unit := do
  if o.shown.isNone then
    if o.exitCode = 0 then IO.print usage else IO.eprint usage
  IO.print o.output
  if let some e := o.failure then IO.eprintln e.message

end ClassAtlas.Command

open ClassAtlas.Command in
def main (args : List String) : IO UInt32 := do
  let started ← IO.monoMsNow
  let now ← Std.Time.DateTime.now
  let fs ← picture args
  let o := run (.plain 80) (utc now) fs args
  printOutcome o
  let elapsed := seconds ((← IO.monoMsNow) - started)
  writeChanges fs (o.files ⟨utc now, now.format "uuuu-MM-dd'T'HH:mm:ssxx", elapsed⟩)
  return o.exitCode.toUInt32
