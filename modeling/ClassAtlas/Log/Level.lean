import ClassAtlas.Text.Capital
import ClassAtlas.Text.Quoted

/-! Severities of log records and their names. -/

namespace ClassAtlas.Log

/-- Severities are numbers; the greater, the graver. Zero is no severity of its own. -/
abbrev Level := Nat

def debug : Level := 10

def info : Level := 20

def warning : Level := 30

def error : Level := 40

def critical : Level := 50

def levelNames : List (String × Level) :=
  [("NOTSET", 0), ("DEBUG", debug), ("INFO", info), ("WARNING", warning), ("WARN", warning),
    ("ERROR", error), ("CRITICAL", critical), ("FATAL", critical)]

/-- Two names stand for something else than a level: one for a text, the other for a table. -/
inductive LevelError where
  | namesText (text : String)
  | namesTable
  deriving DecidableEq

def LevelError.message : LevelError → String
  | namesText text => "Unknown level: " ++ quoted text
  | namesTable => "not a level"

/-- The level of a name, in letters of any case. An unknown name counts as a warning. -/
def levelOfName (name : String) : Except LevelError Level :=
  let name := capitals name
  if name = "BASIC_FORMAT" then .error (.namesText "%(levelname)s:%(name)s:%(message)s")
  else if name = "_STYLES" then .error .namesTable
  else .ok ((levelNames.lookup name).getD warning)

/-- The name under which a severity is written. -/
def levelLabel (level : Level) : String :=
  if level = debug then "DEBUG"
  else if level = info then "INFO"
  else if level = warning then "WARNING"
  else if level = error then "ERROR"
  else "CRITICAL"

end ClassAtlas.Log
