import Std.Data.HashMap
import CallContract.Descriptor.Basic
import CallContract.FileData.Basic

/-!
# Types that describe themselves

Types of the language itself that have a descriptor without an annotation: `Describe.descriptor α`.
-/

namespace CallContract

/-- The path of a file. -/
structure FilePath where
  text : String
  deriving BEq, Hashable

/-- Types that have a descriptor. -/
class Describe (α : Type) where
  descriptor : Descriptor

namespace Describe

instance : Describe String := ⟨.string⟩
instance : Describe Bool := ⟨.boolean⟩
instance : Describe Int := ⟨.integer⟩
instance : Describe Int8 := ⟨.integer⟩
instance : Describe Int16 := ⟨.integer⟩
instance : Describe Int32 := ⟨.integer⟩
instance : Describe Int64 := ⟨.integer⟩
instance : Describe ISize := ⟨.integer⟩
instance : Describe Nat := ⟨.integer⟩
instance : Describe UInt8 := ⟨.integer⟩
instance : Describe UInt16 := ⟨.integer⟩
instance : Describe UInt32 := ⟨.integer⟩
instance : Describe UInt64 := ⟨.integer⟩
instance : Describe USize := ⟨.integer⟩
instance : Describe Binary64 := ⟨.number⟩
instance : Describe Float32 := ⟨.number⟩
instance : Describe Float := ⟨.number⟩
instance : Describe Unit := ⟨.none⟩
instance : Describe Json := ⟨.any⟩
instance : Describe FilePath := ⟨.path⟩
instance : Describe FileData := ⟨.fileData⟩

variable {α κ : Type}

instance [Describe α] : Describe (Option α) := ⟨.optional (descriptor α)⟩
instance [Describe α] : Describe (List α) := ⟨.list (descriptor α)⟩
instance [Describe α] : Describe (Array α) := ⟨.list (descriptor α)⟩

instance [BEq κ] [Hashable κ] [Describe κ] [Describe α] : Describe (Std.HashMap κ α) :=
  ⟨.mapping (descriptor κ) (descriptor α)⟩

end Describe

end CallContract
