import ClassAtlas.Hierarchy.Ancestors

/-! What is told about a class: its members with their types as they are written in source text, and
its ancestors. -/

namespace ClassAtlas

structure MemberSummary where
  name : String
  descriptor : String
  display : String
  modifiers : List String

/-- Sizes of a method body. -/
structure BodySummary where
  maxStack : Nat
  maxLocals : Nat
  codeLength : Nat

/-- A method without a body has no sizes. -/
structure MethodSummary extends MemberSummary where
  body : Option BodySummary

structure AncestorSummary where
  name : String
  kind : String

structure Summary where
  name : String
  version : String
  modifiers : List String
  superName : Option String
  interfaces : List String
  sourceFile : Option String
  fields : List MemberSummary
  methods : List MethodSummary
  ancestors : List AncestorSummary

def BodySummary.ofCode (c : Code) : BodySummary :=
  ⟨c.maxStack.toNat, c.maxLocals.toNat, c.bytes.length⟩

def MemberSummary.ofField (m : Member) : Except DecodeError MemberSummary := do
  let name ← m.name
  let descriptor ← m.descriptor
  let type ← m.type
  return ⟨name, descriptor, s!"{type.display} {name}", m.accessFlags.modifiers .ofField⟩

/-- The argument types stand between brackets behind the name. -/
def MethodSummary.ofMethod (m : Member) : Except DecodeError MethodSummary := do
  let type ← m.methodType
  let arguments := ", ".intercalate (type.args.map Signature.display)
  let name ← m.name
  let descriptor ← m.descriptor
  let display := s!"{type.result.display} {name}({arguments})"
  let code ← m.code
  return ⟨⟨name, descriptor, display, m.accessFlags.modifiers .ofMethod⟩,
    code.map BodySummary.ofCode⟩

namespace Summary

/-- The summary of a class whose ancestors have not been looked up. -/
def ofClass (c : Class) : Except DecodeError Summary := do
  let interfaces ← c.interfaces
  let sourceFile ← c.sourceFile
  let fields ← c.fields.mapM MemberSummary.ofField
  let methods ← c.methods.mapM MethodSummary.ofMethod
  let version := s!"{c.raw.majorVersion.toNat}.{c.raw.minorVersion.toNat}"
  return ⟨c.thisName, version, c.accessFlags.modifiers .ofClass, c.superName, interfaces,
    sourceFile, fields, methods, []⟩

/-- Fills in the ancestors that a hierarchy has for the class. -/
def withAncestors (h : Hierarchy) (s : Summary) : Except Error Summary := do
  let ancestors ← h.ancestors (.plain s.name)
  return { s with ancestors := ancestors.map fun a => ⟨a.1.thisName, a.2.label⟩ }

/-- The summary of a class, with the ancestors of the hierarchy that is given. -/
def ofHierarchy (c : Class) (h : Option Hierarchy) : Except Error Summary := do
  match ofClass c, h with
  | .error e, _ => throw (.decode e)
  | .ok s, none => return s
  | .ok s, some h => s.withAncestors h

def dottedName (s : Summary) : String :=
  String.ofList (s.name.toList.map QualifiedName.unslashed)

end Summary

end ClassAtlas
