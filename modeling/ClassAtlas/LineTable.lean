/-! Line number tables: which source line an instruction comes from. -/

namespace ClassAtlas

/-- A line begins at an instruction offset. -/
structure LineEntry where
  startPc : Int
  line : Int
  deriving DecidableEq, Repr

structure LineTable where
  entries : List LineEntry
  deriving DecidableEq, Repr

namespace LineTable

/-- The later start wins; of equal starts the entry held already. -/
def later (pc : Int) (best : Option LineEntry) (e : LineEntry) : Option LineEntry :=
  match best with
  | none => if e.startPc ≤ pc then some e else none
  | some b => if e.startPc ≤ pc ∧ b.startPc < e.startPc then some e else some b

/-- The line of the last start at or before `pc`. -/
def lineAt? (t : LineTable) (pc : Int) : Option Int :=
  (t.entries.foldl (later pc) none).map LineEntry.line

end LineTable

end ClassAtlas
