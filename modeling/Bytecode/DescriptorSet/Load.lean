import Bytecode.DescriptorSet.Reader
import Bytecode.Table.Build

/-! # Tables from text

The table of a descriptor set given as text. The whole text is read before any
descriptor is looked at, so a problem in the text is the only thing reported.
-/

namespace Bytecode.Table

/-- Build the table of the descriptor set that a text lists. -/
def load (text : List Char) : Logged (Except Fault Table) :=
  match DescriptorSet.read text with
  | .ok descriptors => build descriptors
  | .error problem => .silent (.error (.descriptorSet problem.message))

variable {text : List Char}

theorem load_of_read_eq_ok {descriptors : List Descriptor}
    (listed : DescriptorSet.read text = .ok descriptors) : load text = build descriptors := by
  rw [load, listed]

theorem load_of_read_eq_error {problem : DescriptorSet.Problem}
    (refused : DescriptorSet.read text = .error problem) :
    load text = .silent (.error (.descriptorSet problem.message)) := by
  rw [load, refused]

end Bytecode.Table
