import ClassAtlas.Log.Record

/-! Loggers, and the journal in which one of them keeps its records. -/

namespace ClassAtlas.Log

/-- Who reports, and the operation under way. -/
structure Logger where
  component : String
  operation : Option String

namespace Logger

/-- Starts an operation inside the one under way. -/
def enter (l : Logger) (operation : String) : Logger :=
  { l with operation := some operation }

/-- Ends an operation; the one before it is under way again. -/
def leave (l : Logger) (before : Option String) : Logger :=
  { l with operation := before }

def record (l : Logger) (level : Level) (note : Note) (context : List (String × Json)) :
    Record :=
  ⟨level, l.component, note, l.operation, Record.contextOf context, .unasked⟩

end Logger

/-- Whether records of a level are taken under a threshold. -/
def enabled (threshold level : Level) : Bool :=
  threshold ≤ level

/-- The records of one logger, newest first. -/
structure Journal extends Logger where
  threshold : Level
  records : List Record

namespace Journal

def new (component : String) (threshold : Level) : Journal :=
  ⟨⟨component, none⟩, threshold, []⟩

def silent (component : String) : Journal :=
  new component warning

def add (level : Level) (note : Note) (context : List (String × Json)) (j : Journal) : Journal :=
  if enabled j.threshold level then
    { j with records := j.record level note context :: j.records }
  else j

end Journal

end ClassAtlas.Log
