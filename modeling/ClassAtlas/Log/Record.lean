import ClassAtlas.Json.Basic
import ClassAtlas.Log.Level

/-! Log records and the two ways to write them: as a line of text and as a JSON object. -/

namespace ClassAtlas.Log

/-- What a record says. How long something took is filled in when the record is written. -/
inductive Note where
  | text (message : String)
  | completed (label : String)

/-- When a record is written, in both notations, and how long what it reports took. -/
structure Clock where
  stamp : String
  localStamp : String
  elapsed : String

def Note.message (clock : Clock) : Note → String
  | text message => message
  | completed label => s!"Completed: {label} ({clock.elapsed} sec)"

/-- What a record tells of a failure. One that is asked for where nothing has failed shows only in
lines of text. -/
inductive Trouble where
  | unasked
  | absent
  | failure (text : String)

/-- A context is an object as a rule; `null` stands for none. -/
structure Record where
  level : Level
  component : String
  note : Note
  operation : Option String
  context : Json
  trouble : Trouble

inductive Format where
  | text
  | json
  deriving DecidableEq

/-- What stands below the message, if anything does. -/
def Trouble.toText? : Trouble → Option String
  | unasked => none
  | absent => some "NoneType: None"
  | failure text => some text

def Trouble.fields : Trouble → List (String × Json)
  | failure text => [("exc_info", .str text)]
  | _ => []

/-- A failure is written as its kind and, if there is one, its message. -/
def describeFailure (kind message : String) : String :=
  if message.isEmpty then kind else s!"{kind}: {message}"

namespace Record

def loggerName (component : String) : String :=
  "classlens." ++ component

/-- Fields that come with a message are its context, if there are any. -/
def contextOf (fields : List (String × Json)) : Json :=
  if fields.isEmpty then .null else .obj fields

def contextFields (r : Record) : List (String × Json) :=
  match r.context with
  | .null => []
  | context => [("context", context)]

def toJson (clock : Clock) (r : Record) : Json :=
  .obj ([("timestamp", .str clock.stamp), ("level", .str (levelLabel r.level)),
      ("logger", .str (loggerName r.component)), ("message", .str (r.note.message clock)),
      ("component", .str r.component)] ++
    (r.operation.map fun name => ("operation", Json.str name)).toList ++
    r.contextFields ++ r.trouble.fields)

/-- The level takes eight places at least. -/
def toText (clock : Clock) (r : Record) : String :=
  let label := levelLabel r.level
  let padding := String.ofList (List.replicate (8 - label.length) ' ')
  let message := r.note.message clock
  let below (text : String) : String := (if message.endsWith "\n" then "" else "\n") ++ text
  s!"{clock.localStamp} | {label}{padding} | {loggerName r.component} | " ++ message ++
    r.trouble.toText?.elim "" below

def line (clock : Clock) (format : Format) (r : Record) : String :=
  match format with
  | .text => r.toText clock ++ "\n"
  | .json => (r.toJson clock).toText ⟨none, false⟩ ++ "\n"

end Record

end ClassAtlas.Log
