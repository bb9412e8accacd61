import CallContract.Descriptor.Basic

/-!
# Types as annotations

`Descriptor.chars` writes a type the way annotations are written: scalars by their annotation names,
records and enumerations by their own.
-/

namespace CallContract

/-- The annotation name of a scalar type. -/
def Primitive.word : Primitive → String
  | .string => "str"
  | .boolean => "bool"
  | .integer => "int"
  | .number => "float"

namespace Descriptor

mutual
/-- The characters of a type as an annotation. -/
def chars : Descriptor → List Char
  | .primitive kind => kind.word.toList
  | .none => "None".toList
  | .any => "Any".toList
  | .optional inner => "Optional[".toList ++ chars inner ++ [']']
  | .union members => "Union[".toList ++ charsOfAll members ++ [']']
  | .list element => "list[".toList ++ chars element ++ [']']
  | .mapping key value => "dict[".toList ++ chars key ++ ", ".toList ++ chars value ++ [']']
  | .record name _ => name.toList
  | .enumeration name _ => name.toList
  | .path => "Path".toList
  | .fileData => "FileData".toList

/-- Types with a comma and a blank between them. -/
def charsOfAll : List Descriptor → List Char
  | [] => []
  | [member] => chars member
  | member :: rest => chars member ++ ", ".toList ++ charsOfAll rest
end

/-- A type as an annotation. -/
def text (t : Descriptor) : String :=
  String.ofList t.chars

end Descriptor

end CallContract
