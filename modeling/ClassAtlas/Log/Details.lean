import ClassAtlas.Log.Message
import ClassAtlas.Log.Record

/-! What a caller adds to a record by name. Most of it is the context of the record; a few names ask
for something else. -/

namespace ClassAtlas.Log

/-- Why a record cannot be made. -/
inductive ReportError where
  | repeatedName (name : String)
  | notFields
  | notNumber
  | reservedName (name : String)
  | fit (e : FitError)
  deriving DecidableEq

/-- The extra fields of a record do not show, but for one that stands in for a context. What says
how far up the caller stands does not show either. Both have to be of the right kind
nevertheless. -/
structure Details where
  context : List (String × Json)
  trouble : Trouble
  extra : Json
  depth : Json

namespace Details

/-- Names of what a call gives by position. -/
def givenNames : List String :=
  ["self", "msg"]

/-- Names that are no context. -/
def ownNames : List String :=
  ["exc_info", "stack_info", "stacklevel", "extra"]

/-- What every record has already. -/
def recordNames : List String :=
  ["name", "msg", "args", "levelname", "levelno", "pathname", "filename", "module", "exc_info",
    "exc_text", "stack_info", "lineno", "funcName", "created", "msecs", "relativeCreated", "thread",
    "threadName", "processName", "process", "message", "asctime"]

/-- The extra field that stands in for a context. -/
def contextName : String :=
  "lens_context"

def ofFields (fields : List (String × Json)) : Except ReportError Details :=
  match fields.find? fun f => givenNames.contains f.1 with
  | some (name, _) => .error (.repeatedName name)
  | none =>
    let asked := ((fields.lookup "exc_info").map Json.isOn).getD false
    .ok ⟨fields.filter fun f => !ownNames.contains f.1, if asked then .absent else .unasked,
      (fields.lookup "extra").getD .null, (fields.lookup "stacklevel").getD (.int 1)⟩

/-- Anything that counts as switched off stands for no extra fields. -/
def extraFields (d : Details) : Except ReportError (List (String × Json)) :=
  if !d.extra.isOn then .ok []
  else
    match d.extra with
    | .obj fields => .ok fields
    | _ => .error .notFields

/-- Extra fields may not replace what a record has. -/
def check (d : Details) (extra : List (String × Json)) : Except ReportError Unit :=
  match d.depth with
  | .int _ | .bool _ | .float _ =>
    match extra.find? fun f => recordNames.contains f.1 with
    | some (name, _) => .error (.reservedName name)
    | none => .ok ()
  | _ => .error .notNumber

/-- A call that brings no context takes the one among the extra fields. -/
def contextOver (d : Details) (extra : List (String × Json)) : Json :=
  if d.context.isEmpty then (extra.lookup contextName).getD .null else .obj d.context

end Details

end ClassAtlas.Log
