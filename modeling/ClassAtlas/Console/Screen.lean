import ClassAtlas.Console.Block

/-! Showing blocks. What is printed for a block is up to the screen, which reads markup in its texts
and cannot show all of them. -/

namespace ClassAtlas.Console

/-- What is printed for a block and for a plain text, or the message of the failure to print it. -/
structure Screen where
  block : Block → Except String String
  text : String → Except String String

/-- A screen that takes everything and prints nothing for a block. -/
def Screen.quiet : Screen :=
  ⟨fun _ => .ok "", .ok⟩

/-- The blocks that were shown and what was printed for them. A fault is that of the block behind
them, the last one that was tried. -/
structure Showing where
  blocks : List Block
  output : String
  fault : Option String

/-- Shows one block after the other. -/
def Screen.showAll (screen : Screen) : List Block → Showing
  | [] => ⟨[], "", none⟩
  | b :: bs =>
    match screen.block b with
    | .error message => ⟨[], "", some message⟩
    | .ok output =>
      let rest := screen.showAll bs
      ⟨b :: rest.blocks, output ++ rest.output, rest.fault⟩

end ClassAtlas.Console
