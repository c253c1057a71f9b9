import Bytecode.Logged
import Bytecode.Table

/-! # Drafts of tables

A draft knows of every opcode whether a descriptor mentioned it and what was said
last. Descriptors are entered one by one, up to the first malformed one. A later
descriptor replaces an earlier one for the same opcode; where the two state
different encodings this is reported.
-/

namespace Bytecode

/-- What a descriptor list has said about every opcode so far. -/
structure Draft where
  mentions : Vector (Option Encoding) 256

namespace Draft

/-- The draft in which no opcode was mentioned. -/
def blank : Draft := ⟨Vector.replicate 256 none⟩

/-- What was said last about an opcode. -/
def mention? (draft : Draft) (opcode : Opcode) : Option Encoding := draft.mentions.get opcode.index

def enter (draft : Draft) (opcode : Opcode) (encoding : Encoding) : Draft :=
  ⟨draft.mentions.set opcode.index (some encoding) opcode.index_lt⟩

theorem mention?_eq_getElem (draft : Draft) (opcode : Opcode) (bounded : opcode.toNat < 256) :
    draft.mention? opcode = draft.mentions[opcode.toNat] := rfl

@[simp] theorem mention?_blank (opcode : Opcode) : blank.mention? opcode = none := by
  simp [mention?_eq_getElem, opcode.toNat_lt, blank]

theorem mention?_enter (draft : Draft) (entered opcode : Opcode) (encoding : Encoding) :
    (draft.enter entered encoding).mention? opcode =
      if opcode = entered then some encoding else draft.mention? opcode := by
  by_cases same : opcode = entered
  · subst same
    simp [mention?_eq_getElem, opcode.toNat_lt, enter]
  · have apart : entered.toNat ≠ opcode.toNat := fun equal =>
      same (Opcode.toNat_injective equal.symm)
    simp [mention?_eq_getElem, opcode.toNat_lt, enter, same, apart]

/-- The report due when an encoding is entered for an opcode: one if something
else was said about it before. -/
def replacementEvents (draft : Draft) (opcode : Opcode) (encoding : Encoding) : List Event :=
  match draft.mention? opcode with
  | none => []
  | some previous =>
      if previous = encoding then [] else [.encodingReplaced opcode previous encoding]

/-- Enter descriptors in order, up to the first malformed one. -/
def enterAll (draft : Draft) : List Descriptor → Logged (Except Fault Draft)
  | [] => .silent (.ok draft)
  | descriptor :: rest =>
      match descriptor.encoding? with
      | none => .silent (.error (.invalidMetadata descriptor.opcode descriptor.prefixWidth))
      | some encoding =>
          let later := (draft.enter descriptor.opcode encoding).enterAll rest
          ⟨later.value, draft.replacementEvents descriptor.opcode encoding ++ later.events⟩

/-- The table that a draft describes; an opcode never mentioned has no operand. -/
def table (draft : Draft) : Table := ⟨draft.mentions.map (·.getD .empty)⟩

@[simp] theorem lookup_table (draft : Draft) (opcode : Opcode) :
    draft.table.lookup opcode = (draft.mention? opcode).getD .empty := by
  simp [table, Table.lookup, mention?_eq_getElem, opcode.toNat_lt]

end Draft

end Bytecode
