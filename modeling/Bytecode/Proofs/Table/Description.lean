import Bytecode.Proofs.Table.Replacements
import Mathlib.Data.List.Perm.Subperm

/-! # The description of a table

The description of a table names the opcodes that have an operand, each once and in ascending
order (`Table.describes_description`). It settles for every opcode what the table says, so it
builds the table. A list that builds the table has to mention all these opcodes, so none is
shorter (`Table.length_description_le`).
-/

namespace Bytecode

theorem Opcode.pairwise_all : all.Pairwise fun first second => first.toNat < second.toNat := by
  refine List.pairwise_map.mpr (List.pairwise_lt_range.imp_of_mem ?_)
  intro first second firstSmall secondSmall ordered
  rw [toNat_ofNat (List.mem_range.mp firstSmall), toNat_ofNat (List.mem_range.mp secondSmall)]
  exact ordered

namespace Table

/-- **The descriptors of what a table says.** They ascend by opcode, and those of the table are
the ones with an operand: the width is that of the length field, the size the constant one. -/
structure Describes (table : Table) (descriptors : List Descriptor) : Prop where
  ascending : descriptors.Pairwise fun first second => first.opcode.toNat < second.opcode.toNat
  mem_iff : ∀ opcode prefixWidth fixedSize,
    ⟨opcode, prefixWidth, fixedSize⟩ ∈ descriptors ↔ table.lookup opcode ≠ .fixed 0 ∧
      prefixWidth = (table.lookup opcode).prefixWidth ∧
      fixedSize = (table.lookup opcode).fixedSize

variable {table : Table} {opcode : Opcode}

theorem description_eq (table : Table) :
    table.description = (Opcode.all.filter fun opcode => table.lookup opcode ≠ .empty).map
      fun opcode => .ofEncoding opcode (table.lookup opcode) := by
  rw [description, described, List.map_map]
  rfl

theorem mem_description_iff {descriptor : Descriptor} :
    descriptor ∈ table.description ↔ table.lookup descriptor.opcode ≠ .empty ∧
      descriptor = .ofEncoding descriptor.opcode (table.lookup descriptor.opcode) := by
  rw [description_eq, List.mem_map]
  constructor
  · rintro ⟨opcode, member, rfl⟩
    exact ⟨of_decide_eq_true (List.mem_filter.mp member).2, rfl⟩
  · rintro ⟨operand, stated⟩
    exact ⟨descriptor.opcode,
      List.mem_filter.mpr ⟨Opcode.mem_all _, decide_eq_true operand⟩, stated.symm⟩

theorem describes_description (table : Table) : table.Describes table.description where
  ascending := by
    rw [description_eq, List.pairwise_map]
    exact Opcode.pairwise_all.filter _
  mem_iff opcode prefixWidth fixedSize := by
    rw [mem_description_iff, Descriptor.ofEncoding, Descriptor.mk.injEq]
    simp only [Encoding.empty, true_and]

/-- Every opcode comes once. -/
theorem Describes.nodup {descriptors : List Descriptor} (describes : table.Describes descriptors) :
    (descriptors.map (·.opcode)).Nodup := by
  refine List.pairwise_map.mpr (describes.ascending.imp ?_)
  intro first second ordered same
  rw [same] at ordered
  exact Nat.lt_irrefl _ ordered

/-- The description settles for every opcode what the table says. -/
theorem settledBy_description (table : Table) (opcode : Opcode) :
    (table.lookup opcode).SettledBy table.description opcode := by
  unfold Encoding.SettledBy
  cases last : opcode.descriptor? table.description with
  | none =>
      by_contra operand
      have described : .ofEncoding opcode (table.lookup opcode) ∈ table.description :=
        mem_description_iff.mpr ⟨operand, rfl⟩
      exact Opcode.descriptor?_eq_none_iff.mp last _ described rfl
  | some descriptor =>
      obtain ⟨-, stated⟩ := mem_description_iff.mp (Opcode.mem_of_descriptor?_eq_some last)
      rw [Opcode.opcode_of_descriptor?_eq_some last] at stated
      rw [stated]
      exact Descriptor.encoding?_eq_some_iff.mp (Descriptor.encoding?_ofEncoding opcode _)

/-- **The description builds the table.** -/
theorem value_build_description (table : Table) : (build table.description).value = .ok table := by
  have wellFormed : ∀ descriptor ∈ table.description, descriptor.encoding?.isSome := by
    intro descriptor member
    obtain ⟨-, stated⟩ := mem_description_iff.mp member
    rw [stated, Descriptor.encoding?_ofEncoding, Option.isSome_some]
  obtain ⟨rebuilt, built, settled⟩ := exists_settled_build wellFormed
  obtain rfl : rebuilt = table :=
    ext fun opcode => (settled opcode).eq (table.settledBy_description opcode)
  exact built

theorem events_build_description (table : Table) :
    (build table.description).events =
      [.tableBuilt table.description.length table.prefixedEntries] := by
  rw [events_build, Descriptor.replacements_eq_nil_of_nodup table.describes_description.nodup,
    value_build_description, List.nil_append]

theorem description_injective {first second : Table}
    (same : first.description = second.description) : first = second := by
  have built := first.value_build_description
  rw [same, second.value_build_description] at built
  exact (Except.ok.inj built).symm

/-- Without a descriptor for an opcode a list leaves it without an operand. -/
theorem exists_descriptor_of_build {descriptors : List Descriptor}
    (built : (build descriptors).value = .ok table) (operand : table.lookup opcode ≠ .empty) :
    ∃ descriptor ∈ descriptors, descriptor.opcode = opcode := by
  by_contra unmentioned
  have settled := settledBy_of_build built opcode
  have nothing : opcode.descriptor? descriptors = none :=
    Opcode.descriptor?_eq_none_iff.mpr fun descriptor member same =>
      unmentioned ⟨descriptor, member, same⟩
  rw [Encoding.SettledBy, nothing] at settled
  exact operand settled

/-- A list that builds a table mentions every opcode of the description, and the description
mentions each only once. -/
theorem length_description_le {descriptors : List Descriptor}
    (built : (build descriptors).value = .ok table) :
    table.description.length ≤ descriptors.length := by
  have mentioned : table.description.map (·.opcode) ⊆ descriptors.map (·.opcode) := by
    intro opcode member
    obtain ⟨descriptor, described, rfl⟩ := List.mem_map.mp member
    obtain ⟨operand, -⟩ := mem_description_iff.mp described
    obtain ⟨other, listed, same⟩ := exists_descriptor_of_build built operand
    exact List.mem_map.mpr ⟨other, listed, same⟩
  have shorter := (List.subperm_of_subset table.describes_description.nodup mentioned).length_le
  rwa [List.length_map, List.length_map] at shorter

/-- **The description is the canonical source of a table.** It lists what the table says of the
opcodes that have an operand, in ascending order. It builds the table, and only the table is
reported then. No shorter list builds the table; what is built from the description is
described by it again; and tables with the same description are the same. -/
theorem description_canonical (table : Table) :
    table.Describes table.description ∧
    ((build table.description).value = .ok table ∧
      ∀ event ∈ (build table.description).events, event.level ≠ .warn) ∧
    (∀ descriptors, (build descriptors).value = .ok table →
      table.description.length ≤ descriptors.length) ∧
    (∀ rebuilt, (build table.description).value = .ok rebuilt →
      rebuilt.description = table.description) ∧
    ∀ other : Table, table = other ↔ table.description = other.description := by
  refine ⟨table.describes_description, ⟨table.value_build_description, ?_⟩,
    fun _ => length_description_le, ?_, fun _ => ⟨congrArg description, description_injective⟩⟩
  · intro event reported
    rw [events_build_description, List.mem_singleton] at reported
    rw [reported]
    exact nofun
  · intro rebuilt built
    rw [value_build_description] at built
    rw [Except.ok.inj built]

end Table

end Bytecode
