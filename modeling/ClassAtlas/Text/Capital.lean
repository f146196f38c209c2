/-! Capital forms of letters, as far as they are ASCII letters. -/

namespace ClassAtlas

/-- Other letters than the ASCII ones whose capital forms are ASCII letters. -/
def foreignCapitals : List (Nat × String) :=
  [(0xDF, "SS"), (0x131, "I"), (0x17F, "S"), (0xFB00, "FF"), (0xFB01, "FI"), (0xFB02, "FL"),
    (0xFB03, "FFI"), (0xFB04, "FFL"), (0xFB05, "ST"), (0xFB06, "ST")]

/-- A letter with no ASCII capital form stays as it is. -/
def capital (c : Char) : List Char :=
  match foreignCapitals.lookup c.toNat with
  | some letters => letters.toList
  | none => [c.toUpper]

def capitals (text : String) : String :=
  String.ofList (text.toList.flatMap capital)

end ClassAtlas
