import ClassAtlas.Json.Basic
import ClassAtlas.Text.Quoted

/-! Values as they appear in messages and tables. -/

namespace ClassAtlas.Json

mutual

/-- A value written out, texts between quotes. -/
def literal : Json → String
  | null => "None"
  | bool value => if value then "True" else "False"
  | int value => toString value
  | float value => value.toText
  | str value => quoted value
  | arr items => "[" ++ ", ".intercalate (literals items) ++ "]"
  | obj fields => "\x7b" ++ ", ".intercalate (fieldLiterals fields) ++ "\x7d"

def literals : List Json → List String
  | [] => []
  | item :: items => literal item :: literals items

def fieldLiterals : List (String × Json) → List String
  | [] => []
  | (name, value) :: fields => (quoted name ++ ": " ++ literal value) :: fieldLiterals fields

end

/-- A text as it is, any other value written out. -/
def display : Json → String
  | str value => value
  | value => literal value

end ClassAtlas.Json
