import Bytecode.Table.Draft

/-! # Building tables

A descriptor list builds a table unless one of its descriptors is malformed. Where
the list has to be well formed, a malformed one is reported and ends everything.
-/

namespace Bytecode

namespace Table

/-- The table of a descriptor list, or the fault of its first malformed descriptor. -/
def build (descriptors : List Descriptor) : Logged (Except Fault Table) :=
  let drafted := Draft.blank.enterAll descriptors
  match drafted.value with
  | .error fault => ⟨.error fault, drafted.events⟩
  | .ok draft =>
      let table := draft.table
      ⟨.ok table,
        drafted.events ++ [.tableBuilt descriptors.length table.prefixedEntries]⟩

end Table

/-- Why the library gave up altogether instead of answering. -/
inductive Abort where
  /-- A descriptor set that had to be well formed was not. -/
  | malformedSet (fault : Fault)
  /-- Another table is already in force. -/
  | tableConflict
  deriving DecidableEq

def Abort.message : Abort → String
  | .malformedSet fault => "invalid operand descriptor set: " ++ fault.message
  | .tableConflict => "global encoding table already initialised with different descriptors"

namespace Table

/-- The table of a descriptor list that has to be well formed. -/
def demand (descriptors : List Descriptor) : Logged (Except Abort Table) :=
  let built := build descriptors
  match built.value with
  | .ok table => ⟨.ok table, built.events⟩
  | .error fault => ⟨.error (.malformedSet fault), built.events ++ [.setRejected fault]⟩

end Table

end Bytecode
