import ClassAtlas.Log.Details
import ClassAtlas.Log.Journal

/-! Calls of a logger, and the records they make. -/

namespace ClassAtlas.Log

/-- A message with values for its places, and what is added to it by name. -/
structure Call where
  level : Level
  text : String
  values : List Json
  added : List (String × Json)

/-- The record that a call makes, if its level is reported. A message that its values do not fit
into makes none; where there is a console, it refuses the message. -/
def Logger.compose (l : Logger) (threshold : Level) (console : Bool) (c : Call) :
    Except ReportError (Option Record) := do
  let details ← Details.ofFields c.added
  let on := enabled threshold c.level
  if c.level = debug && !on then return none
  let extra ← details.extraFields
  if !on then return none
  details.check extra
  match fillMessage c.text c.values with
  | .ok message =>
    return some ⟨c.level, l.component, .text message, l.operation, details.contextOver extra,
      details.trouble⟩
  | .error e => if console then throw (.fit e) else return none

end ClassAtlas.Log
