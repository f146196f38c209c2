import ClassAtlas.Name.Identifier
import ClassAtlas.Text.Quoted

/-! Fully qualified class names, owned or as a span of a longer text. Names are compared by their
slashed form. -/

namespace ClassAtlas

inductive NameError where
  | notQualified (text : String)
  | spanOutside (start stop : Int) (length : Nat)
  deriving DecidableEq, Repr

def NameError.message : NameError → String
  | .notQualified text => quoted text ++ " is not a fully qualified name"
  | .spanOutside start stop length =>
    s!"span [{start}:{stop}] outside of source of length {length}"

/-- A name that holds its own text. -/
structure QualifiedName where
  text : String
  valid : isQualifiedName text.toList = true
  deriving DecidableEq

namespace QualifiedName

def ofText (text : String) : Except NameError QualifiedName :=
  if h : isQualifiedName text.toList = true then .ok ⟨text, h⟩ else .error (.notQualified text)

def slashed (c : Char) : Char :=
  if c = '.' then '/' else c

def unslashed (c : Char) : Char :=
  if c = '/' then '.' else c

/-- The name with slashes between its identifiers. -/
def normalized (n : QualifiedName) : String :=
  String.ofList (n.text.toList.map slashed)

/-- The name with dots between its identifiers. -/
def dotted (n : QualifiedName) : String :=
  String.ofList (n.normalized.toList.map unslashed)

/-- The last identifier. -/
def simpleName (n : QualifiedName) : String :=
  String.ofList (cutLast isSlash n.normalized.toList).2

/-- The slashed name without its last identifier; empty for the default package. -/
def package (n : QualifiedName) : String :=
  String.ofList ((cutLast isSlash n.normalized.toList).1.getD [])

/-- Where a class of this name lies below a classpath entry. -/
def resourcePath (n : QualifiedName) : String :=
  n.normalized ++ ".class"

def display (n : QualifiedName) : String :=
  "FQNameBuf(" ++ quoted n.text ++ ")"

end QualifiedName

/-- The characters of a text from `start` up to `stop`. -/
def slice (text : List Char) (start stop : Nat) : List Char :=
  (text.take stop).drop start

/-- A name that is a span of a source text. -/
structure NameSpan where
  source : String
  start : Nat
  stop : Nat
  ordered : start ≤ stop
  inside : stop ≤ source.length
  valid : isQualifiedName (slice source.toList start stop) = true

namespace NameSpan

/-- The bounds are checked before the text between them. -/
def ofBounds (source : String) (start stop : Int) : Except NameError NameSpan :=
  if hb : 0 ≤ start ∧ start ≤ stop ∧ stop ≤ source.length then
    if h : isQualifiedName (slice source.toList start.toNat stop.toNat) = true then
      .ok ⟨source, start.toNat, stop.toNat, by omega, by omega, h⟩
    else .error (.notQualified (String.ofList (slice source.toList start.toNat stop.toNat)))
  else .error (.spanOutside start stop source.length)

def ofText (source : String) : Except NameError NameSpan :=
  ofBounds source 0 source.length

def text (v : NameSpan) : String :=
  String.ofList (slice v.source.toList v.start v.stop)

def toOwned (v : NameSpan) : QualifiedName :=
  ⟨v.text, by simpa [text] using v.valid⟩

def display (v : NameSpan) : String :=
  "FQName(" ++ quoted v.text ++ ")"

end NameSpan

def QualifiedName.toSpan (n : QualifiedName) : NameSpan :=
  ⟨n.text, 0, n.text.length, Nat.zero_le _, Nat.le_refl _, by
    have h : slice n.text.toList 0 n.text.length = n.text.toList := by
      simp [slice, ← String.length_toList]
    rw [h]; exact n.valid⟩

/-- Anything a class can be asked for by. -/
inductive NameLike where
  | plain (text : String)
  | span (name : NameSpan)
  | owned (name : QualifiedName)

namespace NameLike

def text : NameLike → String
  | plain text => text
  | span name => name.text
  | owned name => name.text

/-- What equality and hashing look at: a plain text is taken as it stands, a name by its slashed
form. -/
def key : NameLike → String
  | plain text => text
  | span name => name.toOwned.normalized
  | owned name => name.normalized

instance : BEq NameLike where
  beq a b := a.key == b.key

/-- A plain text has to be a qualified name. -/
def toSpan : NameLike → Except NameError NameSpan
  | plain text => NameSpan.ofText text
  | span name => .ok name
  | owned name => .ok name.toSpan

end NameLike

end ClassAtlas
