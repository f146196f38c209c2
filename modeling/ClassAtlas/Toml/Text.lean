import ClassAtlas.Text.Numeral

/-! Quoted texts of TOML, on one line or, between three quotes, on many. -/

namespace ClassAtlas.Toml

def quote : Char := '"'

def apostrophe : Char := Char.ofNat 0x27

/-- Characters that never stand for themselves. -/
def isControl (c : Char) : Bool :=
  (c.toNat < 0x20 && c ≠ '\t') || c.toNat = 0x7F

def isBlankChar (c : Char) : Bool :=
  c = ' ' || c = '\t'

/-- Whether a text may hold the character; only one on many lines holds line ends. -/
def isAllowed (lines : Bool) (c : Char) : Bool :=
  !isControl c || (lines && c = '\n')

/-- What a single character after a backslash stands for. -/
def escaped? (c : Char) : Option Char :=
  if c = 'b' then some (Char.ofNat 8)
  else if c = 't' then some '\t'
  else if c = 'n' then some '\n'
  else if c = 'f' then some (Char.ofNat 0xC)
  else if c = 'r' then some '\r'
  else if c = '"' || c = '\\' then some c
  else none

/-- The character of a hexadecimal code point, which may not be a surrogate. -/
def codePoint? (digits : List Char) : Option Char := do
  let point ← Numeral.hex? digits
  if point.isValidChar then some (Char.ofNat point) else none

/-- What is read inside quotes: the text itself, blanks between a backslash and a line end, or the
blanks and line ends after that. -/
inductive Inside where
  | text
  | lineEnd
  | margin

/-- A text up to its closing quotes, and what follows them. -/
abbrev Cut := Option (List Char × List Char)

def Cut.add (c : Char) : Cut → Cut :=
  Option.map fun (text, rest) => (c :: text, rest)

/-- Up to two quotes that follow three closing ones belong to the text. -/
def closeLines (mark : Char) : List Char → List Char × List Char
  | a :: b :: rest =>
    if a = mark then if b = mark then ([mark, mark], rest) else ([mark], b :: rest)
    else ([], a :: b :: rest)
  | [a] => if a = mark then ([mark], []) else ([], [a])
  | [] => ([], [])

/-- Whether the closing quotes start behind a quote just read. -/
def closes (lines : Bool) (mark : Char) (rest : List Char) : Bool :=
  !lines || [mark, mark].isPrefixOf rest

/-- What closing quotes leave, the first of them being read already. -/
def close (lines : Bool) (mark : Char) (rest : List Char) : List Char × List Char :=
  if lines then closeLines mark (rest.drop 2) else ([], rest)

/-- Reads a text with escapes. On many lines, a backslash at the end of a line takes the line end
and all blanks after it away. -/
def basic (lines : Bool) : Inside → List Char → Cut
  | _, [] => none
  | .lineEnd, c :: cs =>
    if isBlankChar c then basic lines .lineEnd cs
    else if c = '\n' then basic lines .margin cs
    else none
  | inside, c :: cs =>
    if inside matches .margin && (isBlankChar c || c = '\n') then basic lines .margin cs
    else if c = '"' then
      if closes lines quote cs then some (close lines quote cs)
      else (basic lines .text cs).add c
    else if c = '\\' then
      match cs with
      | 'u' :: d₁ :: d₂ :: d₃ :: d₄ :: rest => do
        let c ← codePoint? [d₁, d₂, d₃, d₄]
        (basic lines .text rest).add c
      | 'U' :: d₁ :: d₂ :: d₃ :: d₄ :: d₅ :: d₆ :: d₇ :: d₈ :: rest => do
        let c ← codePoint? [d₁, d₂, d₃, d₄, d₅, d₆, d₇, d₈]
        (basic lines .text rest).add c
      | e :: rest =>
        if lines && isBlankChar e then basic lines .lineEnd rest
        else if lines && e = '\n' then basic lines .margin rest
        else do
          let c ← escaped? e
          (basic lines .text rest).add c
      | [] => none
    else if isAllowed lines c then (basic lines .text cs).add c
    else none

/-- Reads a text without escapes. -/
def literal (lines : Bool) : List Char → Cut
  | [] => none
  | c :: cs =>
    if c = apostrophe && closes lines apostrophe cs then some (close lines apostrophe cs)
    else if isAllowed lines c then (literal lines cs).add c
    else none

/-- A line end right behind three opening quotes does not count. -/
def dropLineEnd : List Char → List Char
  | '\n' :: rest => rest
  | rest => rest

/-- A quoted text on one line. -/
def oneLine (cs : List Char) : Cut :=
  match cs with
  | c :: rest =>
    if c = quote then basic false .text rest
    else if c = apostrophe then literal false rest
    else none
  | [] => none

/-- A quoted text of either kind. -/
def text (cs : List Char) : Cut :=
  if [quote, quote, quote].isPrefixOf cs then basic true .text (dropLineEnd (cs.drop 3))
  else if [apostrophe, apostrophe, apostrophe].isPrefixOf cs then
    literal true (dropLineEnd (cs.drop 3))
  else oneLine cs

end ClassAtlas.Toml
