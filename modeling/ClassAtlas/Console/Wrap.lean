import ClassAtlas.Text.Blank

/-! Breaking a text into lines that are not longer than some width. Lines end between words; only a
word that is longer than a line is cut. -/

namespace ClassAtlas.Console

/-- A text in stretches that begin with other characters than blanks and end with blanks, or with
the text. Blanks at the start of the text are a stretch of their own. -/
def stretches : List Char → List (List Char)
  | [] => []
  | c :: cs =>
    match stretches cs with
    | [] => [[c]]
    | [] :: rest => [c] :: rest
    | (d :: s) :: rest =>
      if blankClass.contains c && !blankClass.contains d then [c] :: (d :: s) :: rest
      else (c :: d :: s) :: rest

/-- The words of a text, each with the blanks behind it; the first one has those in front of it
too. -/
def words (text : List Char) : List (List Char) :=
  match stretches text with
  | s :: t :: rest => if isBlank s then (s ++ t) :: rest else s :: t :: rest
  | rest => rest

def dropBlanksRight (text : List Char) : List Char :=
  (text.reverse.dropWhile blankClass.contains).reverse

/-- Cuts a text into pieces of `width` characters, where the first one has room for `room`. -/
def chop (width : Nat) : (room : Nat) → List Char → List (List Char)
  | _, [] => [[]]
  | 0, c :: cs =>
    match chop width (width - 1) cs with
    | [] => [[], [c]]
    | piece :: pieces => [] :: (c :: piece) :: pieces
  | room + 1, c :: cs =>
    match chop width room cs with
    | [] => [[c]]
    | piece :: pieces => (c :: piece) :: pieces

/-- Lines that are complete, and the one that words are still added to. -/
structure Lines where
  done : List (List Char)
  last : List Char

/-- The blanks behind a word need no room. -/
def Lines.add (width : Nat) (ls : Lines) (word : List Char) : Lines :=
  let size := (dropBlanksRight word).length
  if ls.last.length + size ≤ width then { ls with last := ls.last ++ word }
  else
    let done := if ls.last.isEmpty then ls.done else ls.done ++ [ls.last]
    if size ≤ width then ⟨done, word⟩
    else
      let pieces := chop width width word
      ⟨done ++ pieces.dropLast, pieces.getLastD []⟩

def wrap (width : Nat) (text : List Char) : List (List Char) :=
  let ls := (words text).foldl (Lines.add width) ⟨[], []⟩
  ls.done ++ [ls.last]

end ClassAtlas.Console
