import ClassAtlas.Console.Screen
import ClassAtlas.Console.Wrap
import ClassAtlas.Text.Pieces

/-! Blocks as lines of plain text on a console of fixed width. Every character is one cell wide. -/

namespace ClassAtlas.Console

def repeated (c : Char) (n : Nat) : String :=
  String.ofList (List.replicate n c)

/-- The text with spaces on both sides up to a width; the odd one is on the right. -/
def centred (width : Nat) (text : String) : String :=
  let space := width - text.length
  repeated ' ' (space / 2) ++ text ++ repeated ' ' (space - space / 2)

/-- The text if it fits; else as much of it as fits in front of a mark for the rest. -/
def shortened (width : Nat) (text : String) : String :=
  if text.length ≤ width then text
  else String.ofList (text.toList.take (width - 1) ++ ['…'])

/-- A title inside a rule as wide as the console, and an empty line. Two places on each side of the
title are kept free for the rule. -/
def headingLines (width : Nat) (title : String) : List String :=
  if width ≤ 4 then [repeated '─' width, ""]
  else
    let oneLine := title.map fun c => if c = '\n' then ' ' else c
    let label := " " ++ shortened (width - 4) ("  " ++ oneLine ++ "  ") ++ " "
    let left := (width + 2 - label.length) / 2 - 1
    [repeated '─' left ++ label ++ repeated '─' (width - left - label.length), ""]

/-- A message in lines that fit. Blanks at the end of a line may not reach beyond it. -/
def messageLines (width : Nat) (text : String) : List String :=
  (pieces (· = '\n') text.toList).flatMap fun part => (wrap width part).map fun line =>
    String.ofList (line.take width ++ dropBlanksRight (line.drop width))

/-- The texts of a row, with empty ones up to a number of columns. -/
def rowTexts (count : Nat) (texts : List String) : List String :=
  texts ++ List.replicate (count - texts.length) ""

namespace Table

/-- Head and rows as texts, all with as many cells as the longest of them. -/
def texts (t : Table) : List String × List (List String) :=
  let rows := t.rows.map fun row => row.map Json.display
  let count := (rows.map List.length).foldl max t.columns.length
  (rowTexts count t.columns, rows.map (rowTexts count))

def widths (head : List String) (rows : List (List String)) : List Nat :=
  rows.foldl (fun ws row => List.zipWith max ws (row.map String.length)) (head.map String.length)

/-- A line without texts, between its end pieces. -/
def border (widths : List Nat) (left fill joint right : Char) : String :=
  let runs := widths.map fun w => repeated fill (w + 2)
  String.singleton left ++ (String.singleton joint).intercalate runs ++ String.singleton right

def row (widths : List Nat) (wall : Char) (texts : List String) : String :=
  let cells := List.zipWith (fun w s => " " ++ s ++ repeated ' ' (w - s.length) ++ " ") widths texts
  let wall := String.singleton wall
  wall ++ wall.intercalate cells ++ wall

/-- The title in lines that are as wide as the table. -/
def titleLines (width : Nat) (t : Table) : List String :=
  if t.title.isEmpty then []
  else
    ((pieces (· = '\n') t.title.toList).flatMap (wrap width)).map fun line =>
      centred width (String.ofList (dropBlanksRight line))

def lines (t : Table) : List String :=
  let (head, rows) := t.texts
  if head.isEmpty then [""]
  else
    let widths := widths head rows
    let top := border widths '┏' '━' '┳' '┓'
    t.titleLines top.length ++ [top, row widths '┃' head, border widths '┡' '━' '╇' '┩'] ++
      rows.map (row widths '│') ++ [border widths '└' '─' '┴' '┘']

end Table

def Block.lines (width : Nat) : Block → List String
  | .heading title => headingLines width title
  | .error text => messageLines width ("[✘] ERROR: " ++ text)
  | .info text => messageLines width ("[ℹ] INFO: " ++ text)
  | .table t => t.lines

/-- Everything that is shown, each line ended. -/
def plainText (width : Nat) (blocks : List Block) : String :=
  String.join ((blocks.flatMap (Block.lines width)).map fun line => line ++ "\n")

/-- A screen of fixed width that takes every text as it is. -/
def Screen.plain (width : Nat) : Screen :=
  ⟨fun block => .ok (plainText width [block]), .ok⟩

end ClassAtlas.Console
