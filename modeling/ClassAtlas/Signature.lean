/-! Type signatures: base types, class references, arrays and methods, and their two written
forms, the descriptor of a class file and the form of source code. -/

namespace ClassAtlas

/-- Base types and `void`. -/
inductive Primitive where
  | boolean | byte | char | short | int | long | float | double | void
  deriving DecidableEq, Repr

namespace Primitive

/-- The letter that stands for the type in a descriptor. -/
def letter : Primitive → Char
  | boolean => 'Z'
  | byte => 'B'
  | char => 'C'
  | short => 'S'
  | int => 'I'
  | long => 'J'
  | float => 'F'
  | double => 'D'
  | void => 'V'

def keyword : Primitive → String
  | boolean => "boolean"
  | byte => "byte"
  | char => "char"
  | short => "short"
  | int => "int"
  | long => "long"
  | float => "float"
  | double => "double"
  | void => "void"

def ofLetter? : Char → Option Primitive
  | 'Z' => some boolean
  | 'B' => some byte
  | 'C' => some char
  | 'S' => some short
  | 'I' => some int
  | 'J' => some long
  | 'F' => some float
  | 'D' => some double
  | 'V' => some void
  | _ => none

end Primitive

inductive Signature where
  | base (type : Primitive)
  | object (className : String)
  | array (component : Signature)
  | method (args : List Signature) (result : Signature)

namespace Signature

mutual

/-- Same shape, same base types and same class names. -/
def same : Signature → Signature → Bool
  | base a, base b => a == b
  | object a, object b => a == b
  | array a, array b => same a b
  | method as a, method bs b => sameAll as bs && same a b
  | _, _ => false

def sameAll : List Signature → List Signature → Bool
  | [], [] => true
  | a :: as, b :: bs => same a b && sameAll as bs
  | _, _ => false

end

instance : BEq Signature := ⟨same⟩

mutual

/-- Descriptor of the type with `depth` more array dimensions around it. A run of dimensions is
counted first and written at once. -/
def descriptorWithin (depth : Nat) : Signature → List Char
  | base type => List.replicate depth '[' ++ [type.letter]
  | object name => List.replicate depth '[' ++ 'L' :: (name.toList ++ [';'])
  | array component => descriptorWithin (depth + 1) component
  | method args result =>
    List.replicate depth '[' ++ '(' :: (descriptors args ++ ')' :: descriptorWithin 0 result)

def descriptors : List Signature → List Char
  | [] => []
  | arg :: args => descriptorWithin 0 arg ++ descriptors args

end

/-- The form class files hold, such as `(I[J)Ljava/lang/Object;`. -/
def descriptor (s : Signature) : String :=
  String.ofList (s.descriptorWithin 0)

def brackets : Nat → List Char
  | 0 => []
  | depth + 1 => '[' :: ']' :: brackets depth

def dottedClass (name : String) : List Char :=
  name.toList.map fun c => if c = '/' then '.' else c

mutual

/-- Source form of the type with `depth` more array dimensions around it. -/
def displayWithin (depth : Nat) : Signature → List Char
  | base type => type.keyword.toList ++ brackets depth
  | object name => dottedClass name ++ brackets depth
  | array component => displayWithin (depth + 1) component
  | method args result =>
    displayWithin 0 result ++ ' ' :: '(' :: (displays args ++ ')' :: brackets depth)

/-- Source forms with a comma and a space between them. -/
def displays : List Signature → List Char
  | [] => []
  | [arg] => displayWithin 0 arg
  | arg :: next :: args => displayWithin 0 arg ++ ',' :: ' ' :: displays (next :: args)

end

/-- The form of source code, such as `java.lang.Object (int, long[])`. -/
def display (s : Signature) : String :=
  String.ofList (s.displayWithin 0)

/-- Number of directly nested arrays, and the type inside them. -/
def unwrap : Signature → Nat × Signature
  | array component => ((unwrap component).1 + 1, (unwrap component).2)
  | s => (0, s)

/-- The type inside `depth` arrays. -/
def wrap : (depth : Nat) → Signature → Signature
  | 0, s => s
  | depth + 1, s => wrap depth (array s)

/-- Arguments of a method, in source form and joined by commas. -/
def argumentList (args : List Signature) : String :=
  String.ofList (displays args)

/-- A class reference, whose name has at least one character. -/
def object? (name : String) : Option Signature :=
  if name.isEmpty then none else some (object name)

end Signature

end ClassAtlas
