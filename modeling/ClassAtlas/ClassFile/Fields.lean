import ClassAtlas.ClassFile.Pool

/-! The index fields of pool entries and their names in the class-file format. -/

namespace ClassAtlas

def EntryKind.fields : EntryKind → List String
  | classRef => ["name_index"]
  | string => ["string_index"]
  | fieldRef | methodRef | interfaceMethodRef => ["class_index", "name_and_type_index"]
  | nameAndType => ["name_index", "descriptor_index"]
  | methodHandle => ["reference_kind", "reference_index"]
  | methodType => ["descriptor_index"]
  | invokeDynamic => ["bootstrap_method_attr_index", "name_and_type_index"]
  | utf8 | integer | float | long | double => []

namespace Entry

/-- The values of the index fields, in order. -/
def indices : Entry → List Int
  | classRef a | string a | methodType a => [a]
  | fieldRef a b | methodRef a b | interfaceMethodRef a b => [a, b]
  | nameAndType a b | invokeDynamic a b | methodHandle a b => [a, b]
  | utf8 .. | integer _ | float _ | long _ | double _ => []

/-- The entry with the given index fields, if it has only such. -/
def ofIndices? : EntryKind → List Int → Option Entry
  | .classRef, [a] => some (.classRef a)
  | .string, [a] => some (.string a)
  | .methodType, [a] => some (.methodType a)
  | .fieldRef, [a, b] => some (.fieldRef a b)
  | .methodRef, [a, b] => some (.methodRef a b)
  | .interfaceMethodRef, [a, b] => some (.interfaceMethodRef a b)
  | .nameAndType, [a, b] => some (.nameAndType a b)
  | .methodHandle, [a, b] => some (.methodHandle a b)
  | .invokeDynamic, [a, b] => some (.invokeDynamic a b)
  | _, _ => none

end Entry

end ClassAtlas
