import Bytecode.DescriptorSet.Problem

/-! # Writing descriptor sets

A descriptor set is written without blanks, each descriptor as an object of its
three fields in order, in decimal numerals.
-/

namespace Bytecode.DescriptorSet

/-- The items with commas between them. -/
def commaSeparated : List (List Char) → List Char
  | [] => []
  | [item] => item
  | item :: rest => item ++ ',' :: commaSeparated rest

/-- A member of an object: a field's key and value. -/
def writeField (field : Field) (value : Nat) : List Char :=
  '"' :: field.name.toList ++ '"' :: ':' :: Nat.toDigits 10 value

def writeDescriptor (descriptor : Descriptor) : List Char :=
  '\x7b' :: commaSeparated [writeField .opcode descriptor.opcode.toNat,
    writeField .prefixWidth descriptor.prefixWidth.toNat,
    writeField .fixedSize descriptor.fixedSize.toNat] ++ ['\x7d']

/-- A descriptor set written as a list. -/
def write (descriptors : List Descriptor) : List Char :=
  '[' :: commaSeparated (descriptors.map writeDescriptor) ++ [']']

end Bytecode.DescriptorSet
