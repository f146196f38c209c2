import ClassAtlas.Json.Literal

/-! What is shown on a console: headings, messages and tables. -/

namespace ClassAtlas.Console

/-- Styles name the look of the columns, where one is set. -/
structure Table where
  title : String
  columns : List String
  rows : List (List Json)
  styles : Option (List String)

inductive Block where
  | heading (title : String)
  | error (text : String)
  | info (text : String)
  | table (table : Table)

end ClassAtlas.Console
