import Bytecode.Proofs.Walk.Tiling

/-! # Tables that a walk cannot tell apart

The outcome of decoding shows what the table has for the opcode at the position, in an
instruction as in a fault (`Decoder.entryShown_takeInstruction`), and depends on nothing
else in the table (`Decoder.takeInstruction_congr`). So two tables give the same walk
exactly if they agree on the opcodes at the positions that the walk visits.
-/

namespace Bytecode

namespace Decoder

/-- **What an outcome shows of the table.** An instruction carries its encoding. Of the
faults, a missing length field shows its width; an operand declared too long shows its
size if it would have started right behind the opcode, and else the width of the field in
between. -/
def entryShown (position : Nat) : Except Fault Instruction → Option Encoding
  | .ok instruction => some instruction.encoding
  | .error (.outOfBounds _ needed _) => (LengthWidth.ofBytes? (UInt8.ofNat needed)).map .prefixed
  | .error (.truncatedOperand start declared _) =>
      if start = position + 1 then some (.fixed (UInt32.ofNat declared))
      else (LengthWidth.ofBytes? (UInt8.ofNat (start - (position + 1)))).map .prefixed
  | .error (.invalidMetadata ..) | .error (.descriptorSet _) => none

/-- Decoding shows the entry of the opcode, whether it succeeds or not. -/
theorem entryShown_takeInstruction (decoder : Decoder) (position : Nat) (first : UInt8)
    (rest : Bytes) :
    entryShown position (decoder.takeInstruction position (first :: rest)) =
      some (decoder.table.lookup ⟨first⟩) := by
  cases entry : decoder.table.lookup ⟨first⟩ with
  | fixed size =>
      rw [takeInstruction_fixed entry]
      cases read : decoder.takeOperand (position + 1) size.toNat rest with
      | ok operand => rfl
      | error fault =>
          obtain ⟨-, rfl⟩ := takeOperand_eq_error_iff.mp read
          simp only [Except.map, entryShown, ↓reduceIte, UInt32.ofNat_toNat]
  | prefixed width =>
      rcases exists_field_or_short width rest with ⟨length, bytes, rfl, stored⟩ | short
      · rw [takeInstruction_prefixed entry stored]
        cases read : decoder.takeOperand (position + 1 + width.bytes)
            (Bytes.littleEndian length) bytes with
        | ok operand => rfl
        | error fault =>
            obtain ⟨-, rfl⟩ := takeOperand_eq_error_iff.mp read
            -- The field takes at least one byte, so this is no operand of a constant size.
            have behind : position + 1 + width.bytes ≠ position + 1 := by
              cases width <;> simp [LengthWidth.bytes]
            simp only [Except.map, entryShown, behind, ↓reduceIte, Nat.add_sub_cancel_left,
              LengthWidth.ofBytes?_bytes, Option.map_some]
      · rw [takeInstruction_short entry short]
        simp only [entryShown, LengthWidth.ofBytes?_bytes, Option.map_some]

variable {first second : Table} {limits : Limits}

/-- Under one limit the outcome depends on the entry of the opcode alone. -/
theorem takeInstruction_congr {byte : UInt8} (same : first.lookup ⟨byte⟩ = second.lookup ⟨byte⟩)
    (position : Nat) (rest : Bytes) :
    (⟨first, limits⟩ : Decoder).takeInstruction position (byte :: rest) =
      (⟨second, limits⟩ : Decoder).takeInstruction position (byte :: rest) := by
  simp only [takeInstruction, same]
  rfl

/-- Two tables give the same outcome exactly if they have the same entry. -/
theorem takeInstruction_eq_iff {position : Nat} {byte : UInt8} {rest : Bytes} :
    (⟨first, limits⟩ : Decoder).takeInstruction position (byte :: rest) =
        (⟨second, limits⟩ : Decoder).takeInstruction position (byte :: rest) ↔
      first.lookup ⟨byte⟩ = second.lookup ⟨byte⟩ := by
  constructor
  · intro same
    have shown := congrArg (entryShown position) same
    rw [entryShown_takeInstruction, entryShown_takeInstruction] at shown
    exact Option.some.inj shown
  · intro same
    exact takeInstruction_congr same position rest

theorem decode_eq_iff {script : Bytes} {position : Nat} {byte : UInt8}
    (found : script[position]? = some byte) :
    (⟨first, limits⟩ : Decoder).decode script position =
        (⟨second, limits⟩ : Decoder).decode script position ↔
      first.lookup ⟨byte⟩ = second.lookup ⟨byte⟩ := by
  obtain ⟨inside, rfl⟩ := List.getElem?_eq_some_iff.mp found
  rw [decode, decode, List.drop_eq_getElem_cons inside, takeInstruction_eq_iff]

end Decoder

/-- **The positions that a walk visits.** Those of its instructions, and where it stops if
it stops at a fault. -/
inductive Walk.Visits (walk : Walk) : Nat → Prop where
  | decoded {position : Nat} {instruction : Instruction} :
      .decoded position instruction ∈ walk.items → walk.Visits position
  | rejected {fault : Fault} : .rejected fault ∈ walk.items → walk.Visits walk.stop

/-- Two tables have the same entry for the opcode at a position of a script. -/
def Table.AgreeAt (first second : Table) (script : Bytes) (position : Nat) : Prop :=
  ∃ byte, script[position]? = some byte ∧ first.lookup ⟨byte⟩ = second.lookup ⟨byte⟩

namespace Course

variable {first second : Table} {limits : Limits} {script : Bytes} {items : List Item} {stop : Nat}

/-- A visited position is decoded inside the script. -/
theorem lt_length_of_visits (course : Course ⟨first, limits⟩ 0 script items stop) {position : Nat}
    (visits : Walk.Visits ⟨items, stop⟩ position) : position < script.length := by
  cases visits with
  | @decoded _ instruction member =>
      have decoded := course.decode_of_mem rfl member
      have fits := Decoder.size_le_of_takeInstruction decoded
      have positive := instruction.size_pos
      rw [List.length_drop] at fits
      omega
  | rejected member => exact (course.decode_stop_of_mem rfl member).2

/-- Where two courses are the same, the same is decoded at every visited position. -/
theorem decode_eq_of_visits (course : Course ⟨first, limits⟩ 0 script items stop)
    (other : Course ⟨second, limits⟩ 0 script items stop) {position : Nat}
    (visits : Walk.Visits ⟨items, stop⟩ position) :
    (⟨first, limits⟩ : Decoder).decode script position =
      (⟨second, limits⟩ : Decoder).decode script position := by
  cases visits with
  | decoded member =>
      exact (course.decode_of_mem rfl member).trans (other.decode_of_mem rfl member).symm
  | rejected member =>
      exact (course.decode_stop_of_mem rfl member).1.trans
        (other.decode_stop_of_mem rfl member).1.symm

/-- Tables that agree wherever a course visits have that course in common. -/
theorem congr_of_visits {position : Nat} {bytes : Bytes}
    (course : Course ⟨first, limits⟩ position bytes items stop)
    (ahead : bytes = script.drop position)
    (agree : ∀ place, Walk.Visits ⟨items, stop⟩ place → first.AgreeAt second script place) :
    Course ⟨second, limits⟩ position bytes items stop := by
  have same {place : Nat} (agrees : first.AgreeAt second script place) :
      (⟨first, limits⟩ : Decoder).takeInstruction place (script.drop place) =
        (⟨second, limits⟩ : Decoder).takeInstruction place (script.drop place) := by
    obtain ⟨byte, found, equal⟩ := agrees
    exact (Decoder.decode_eq_iff found).mpr equal
  induction course with
  | ended position => exact .ended position
  | @rejected position bytes fault nonempty refused =>
      subst ahead
      have here := same (agree position (.rejected (List.mem_singleton.mpr rfl)))
      exact .rejected nonempty (here ▸ refused)
  | @decoded position bytes instruction items stop taken _ ih =>
      subst ahead
      have here := same (agree position (.decoded List.mem_cons_self))
      refine .decoded (here ▸ taken) (ih List.drop_drop ?_)
      intro place visits
      apply agree place
      cases visits with
      | decoded member => exact .decoded (List.mem_cons_of_mem _ member)
      | rejected member => exact .rejected (List.mem_cons_of_mem _ member)

end Course

namespace Decoder

/-- **Walks tell tables apart exactly where they visit.** Under one limit two tables give
the same walk exactly if they have the same entry for the opcode at every position that
the walk under the first one visits. So the entry of an opcode that stands at none of
these positions has no influence; and at a single position two tables decode alike
exactly if they have the same entry for the byte there. -/
theorem walk_eq_iff_agreeAt (first second : Table) (limits : Limits) (script : Bytes) :
    ((walk ⟨first, limits⟩ script).value = (walk ⟨second, limits⟩ script).value ↔
      ∀ position, (walk ⟨first, limits⟩ script).value.Visits position →
        first.AgreeAt second script position) ∧
    (∀ opcode : Opcode,
      (∀ position, (walk ⟨first, limits⟩ script).value.Visits position →
        script[position]? ≠ some opcode.byte) →
      (∀ other, other ≠ opcode → first.lookup other = second.lookup other) →
      (walk ⟨first, limits⟩ script).value = (walk ⟨second, limits⟩ script).value) ∧
    ∀ position (inside : position < script.length),
      decode ⟨first, limits⟩ script position = decode ⟨second, limits⟩ script position ↔
        first.lookup ⟨script[position]⟩ = second.lookup ⟨script[position]⟩ := by
  have course := course_walk ⟨first, limits⟩ script
  have agreement (agree : ∀ position, (walk ⟨first, limits⟩ script).value.Visits position →
      first.AgreeAt second script position) :
      (walk ⟨first, limits⟩ script).value = (walk ⟨second, limits⟩ script).value :=
    (course.congr_of_visits rfl agree).walk_eq.symm
  refine ⟨⟨?_, agreement⟩, ?_, ?_⟩
  · intro same position visits
    have other := course_walk ⟨second, limits⟩ script
    rw [← same] at other
    have inside := course.lt_length_of_visits visits
    have found : script[position]? = some script[position] := List.getElem?_eq_getElem inside
    exact ⟨_, found, (decode_eq_iff found).mp (course.decode_eq_of_visits other visits)⟩
  · intro opcode unvisited elsewhere
    apply agreement
    intro position visits
    have inside := course.lt_length_of_visits visits
    have found : script[position]? = some script[position] := List.getElem?_eq_getElem inside
    refine ⟨_, found, elsewhere _ ?_⟩
    rintro rfl
    exact unvisited position visits found
  · intro position inside
    exact decode_eq_iff (List.getElem?_eq_getElem inside)

/-- An opcode that only stands inside an operand: its entry changes what is decoded at its
own position, but not the walk. -/
theorem walk_eq_iff_agreeAt_inside_operand :
    let script : Bytes := [0x0c, 2, 0x40, 0x41]
    let first : Table := .ofFunction fun opcode =>
      if opcode = ⟨0x0c⟩ then .prefixed .one else .empty
    let second : Table := .ofFunction fun opcode =>
      if opcode = ⟨0x0c⟩ then .prefixed .one
      else if opcode = ⟨0x40⟩ then .prefixed .four else .empty
    (∀ position, (walk ⟨first, .standard⟩ script).value.Visits position →
      script[position]? ≠ some 0x40) ∧
    (∀ other : Opcode, other ≠ ⟨0x40⟩ → first.lookup other = second.lookup other) ∧
    (walk ⟨first, .standard⟩ script).value = (walk ⟨second, .standard⟩ script).value ∧
    2 < script.length ∧
    decode ⟨first, .standard⟩ script 2 ≠ decode ⟨second, .standard⟩ script 2 := by
  intro script first second
  obtain ⟨-, elsewhere, single⟩ := walk_eq_iff_agreeAt first second .standard script
  have entry : (⟨first, .standard⟩ : Decoder).table.lookup ⟨0x0c⟩ = .prefixed .one := by
    simp [first]
  have taken : (⟨first, .standard⟩ : Decoder).takeInstruction 0 (0x0c :: ([2] ++ [0x40, 0x41])) =
      .ok ⟨⟨0x0c⟩, [0x40, 0x41], .prefixed .one⟩ := by
    rw [takeInstruction_prefixed entry rfl]
    rfl
  have walked := (Course.decoded taken (.ended _)).walk_eq
  have unvisited : ∀ position, (walk ⟨first, .standard⟩ script).value.Visits position →
      script[position]? ≠ some 0x40 := by
    intro position visits
    change (walk ⟨first, .standard⟩ script).value = _ at walked
    rw [walked] at visits
    cases visits with
    | decoded member =>
        cases List.mem_singleton.mp member
        decide
    | rejected member => cases List.mem_singleton.mp member
  have same : ∀ other : Opcode, other ≠ ⟨0x40⟩ → first.lookup other = second.lookup other := by
    intro other different
    simp [first, second, different]
  have inside : 2 < script.length := by simp [script]
  have apart : decode ⟨first, .standard⟩ script 2 ≠ decode ⟨second, .standard⟩ script 2 := by
    intro alike
    have entries := (single 2 inside).mp alike
    simp [script, first, second, Encoding.empty] at entries
  exact ⟨unvisited, same, elsewhere ⟨0x40⟩ unvisited same, inside, apart⟩

end Decoder

end Bytecode
