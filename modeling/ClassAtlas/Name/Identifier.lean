import ClassAtlas.Text.Pieces
import ClassAtlas.Text.Word

/-! Identifiers and the paths made of them. -/

namespace ClassAtlas

def isIdentifierStart (c : Char) : Bool :=
  c == '$' || (isWordChar c && !isDigitChar c)

def isIdentifierPart (c : Char) : Bool :=
  c == '$' || isWordChar c

def isIdentifier : List Char → Bool
  | [] => false
  | c :: cs => isIdentifierStart c && cs.all isIdentifierPart

def isSlash (c : Char) : Bool :=
  c == '/'

def isNameSeparator (c : Char) : Bool :=
  c == '/' || c == '.'

/-- Identifiers joined by slashes, the form class files hold. -/
def isInternalName (text : List Char) : Bool :=
  (pieces isSlash text).all isIdentifier

/-- Identifiers joined by slashes or dots, mixed freely. -/
def isQualifiedName (text : List Char) : Bool :=
  (pieces isNameSeparator text).all isIdentifier

end ClassAtlas
