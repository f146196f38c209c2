import ClassAtlas.Path
import ClassAtlas.Text.Blank
import ClassAtlas.Text.Quoted

/-! Where classes are looked for: folders, archives and class files, the first ones first. -/

namespace ClassAtlas

structure Classpath where
  entries : List Path
  deriving DecidableEq

namespace Classpath

def ofTexts (texts : List String) : Classpath :=
  ⟨texts.map Path.ofText⟩

/-- Cuts a text at a separator and drops blank stretches. An empty separator separates nothing
and is refused. -/
def parse? (separator text : String) : Option Classpath :=
  if separator.isEmpty then none
  else
    let stretches := (cutAll separator.toList text.toList).filter fun s => !isBlank s
    some (ofTexts (stretches.map String.ofList))

def toText (separator : String) (c : Classpath) : String :=
  separator.intercalate (c.entries.map Path.toText)

def join (c d : Classpath) : Classpath :=
  ⟨c.entries ++ d.entries⟩

def pushFront (c : Classpath) (p : Path) : Classpath :=
  ⟨p :: c.entries⟩

def pushBack (c : Classpath) (p : Path) : Classpath :=
  ⟨c.entries ++ [p]⟩

def display (c : Classpath) : String :=
  "Classpath(" ++ quotedList (c.entries.map Path.toText) ++ ")"

end Classpath

end ClassAtlas
