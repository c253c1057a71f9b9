import Bytecode.Descriptor

/-! # Encoding tables

A table gives every opcode an encoding. Its description lists the opcodes that
have an operand, in ascending order; the texts of a table are written from its
description.
-/

namespace Bytecode

/-- An encoding for every opcode. -/
structure Table where
  entries : Vector Encoding 256
  deriving DecidableEq

namespace Table

def lookup (table : Table) (opcode : Opcode) : Encoding := table.entries[opcode.index]

/-- The table that a function on opcodes describes. -/
def ofFunction (encoding : Opcode → Encoding) : Table :=
  ⟨Vector.ofFn fun index => encoding (.ofNat index.val)⟩

def empty : Table := ⟨Vector.replicate 256 .empty⟩

@[simp] theorem lookup_ofFunction (encoding : Opcode → Encoding) (opcode : Opcode) :
    (ofFunction encoding).lookup opcode = encoding opcode := by
  simp [lookup, ofFunction]

@[simp] theorem lookup_empty (opcode : Opcode) : empty.lookup opcode = .empty := by
  simp [lookup, empty]

/-- Tables with the same encodings are the same. -/
theorem ext {first second : Table}
    (same : ∀ opcode, first.lookup opcode = second.lookup opcode) : first = second := by
  obtain ⟨entries⟩ := first
  obtain ⟨others⟩ := second
  congr 1
  apply Vector.ext
  intro index small
  have entry := same (.ofNat index)
  simpa [lookup, Opcode.toNat_ofNat small] using entry

/-- The opcodes that have an operand with their encodings, in ascending order. -/
def described (table : Table) : List (Opcode × Encoding) :=
  (Opcode.all.filter fun opcode => table.lookup opcode ≠ .empty).map fun opcode =>
    (opcode, table.lookup opcode)

/-- The descriptors of the opcodes that have an operand, in ascending order. -/
def description (table : Table) : List Descriptor :=
  table.described.map fun (opcode, encoding) => .ofEncoding opcode encoding

/-- The number of opcodes whose operand length is stored in the script. -/
def prefixedEntries (table : Table) : Nat :=
  Opcode.all.countP fun opcode => (table.lookup opcode).isPrefixed

/-- The table as a developer sees it, on one line. -/
def inspect (table : Table) : String :=
  let entries := table.described.map fun (opcode, encoding) =>
    opcode.inspect ++ ": " ++ encoding.inspect
  "\x7b" ++ String.intercalate ", " entries ++ "\x7d"

/-- An encoding spread over lines at the depth of a table entry. -/
def inspectSpreadEncoding : Encoding → String
  | .fixed size => "Fixed(\n        " ++ toString size.toNat ++ ",\n    )"
  | .prefixed width => "Prefixed(\n        " ++ width.inspect ++ ",\n    )"

/-- The table as a developer sees it, spread over lines. -/
def inspectSpread (table : Table) : String :=
  let entries := table.described.map fun (opcode, encoding) =>
    "    OpCode(\n        " ++ toString opcode.toNat ++ ",\n    ): " ++
      inspectSpreadEncoding encoding ++ ",\n"
  if entries.isEmpty then "\x7b\x7d" else "\x7b\n" ++ String.join entries ++ "\x7d"

end Table

end Bytecode
