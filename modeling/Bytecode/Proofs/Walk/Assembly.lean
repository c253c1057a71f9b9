import Bytecode.Proofs.Position
import Bytecode.Proofs.Program
import Bytecode.Proofs.Walk.Course

/-! # Walking an assembled program

A walk over the bytes of an admitted program finds the program again
(`Course.assemble_append`) and goes on as a walk over what follows would, only
further on (`Course.shift`).
-/

namespace Bytecode

namespace Course

variable {decoder : Decoder} {position : Nat} {items : List Item} {stop : Nat}

/-- The same bytes further on have the same course, moved as far. -/
theorem shift {bytes : Bytes} (course : Course decoder position bytes items stop)
    (distance : Nat) :
    Course decoder (distance + position) bytes (items.map (Item.shift distance))
      (distance + stop) := by
  induction course with
  | ended position => exact .ended (distance + position)
  | @rejected position bytes fault nonempty refused =>
      apply Course.rejected nonempty
      rw [Decoder.takeInstruction_shift, refused]
      rfl
  | @decoded position bytes instruction items stop taken _ ih =>
      refine Course.decoded ?_ (Nat.add_assoc distance position instruction.size ▸ ih)
      rw [Decoder.takeInstruction_shift, taken]
      rfl

/-- An admitted program is passed, and the course of what follows comes after it. -/
theorem assemble_append {program : Program} {tail : Bytes}
    (admitted : ∀ instruction ∈ program, decoder.Admits instruction)
    (course : Course decoder (position + program.size) tail items stop) :
    Course decoder position (program.assemble ++ tail) (program.layOut position ++ items)
      stop := by
  induction program generalizing position with
  | nil => exact course
  | cons instruction rest ih =>
      have first := admitted instruction List.mem_cons_self
      rw [Program.size_cons, ← Nat.add_assoc] at course
      rw [Program.assemble_cons, List.append_assoc]
      refine Course.decoded (Decoder.takeInstruction_wire_append first _ _) ?_
      rw [← first.length_wire, List.drop_left, first.length_wire]
      exact ih (fun later member => admitted later (List.mem_cons_of_mem _ member)) course

end Course

namespace Decoder

theorem walk_assemble {decoder : Decoder} {program : Program}
    (admitted : ∀ instruction ∈ program, decoder.Admits instruction) :
    (decoder.walk program.assemble).value = ⟨program.layOut 0, program.size⟩ := by
  apply Course.walk_eq
  have course : Course decoder 0 (program.assemble ++ []) (program.layOut 0 ++ [])
      (0 + program.size) := Course.assemble_append admitted (.ended (0 + program.size))
  rw [List.append_nil, List.append_nil, Nat.zero_add] at course
  exact course

/-- The bytes of an admitted program determine it. -/
theorem assemble_injective {decoder : Decoder} {first second : Program}
    (firstAdmitted : ∀ instruction ∈ first, decoder.Admits instruction)
    (secondAdmitted : ∀ instruction ∈ second, decoder.Admits instruction)
    (same : first.assemble = second.assemble) : first = second := by
  have walks : (decoder.walk first.assemble).value = (decoder.walk second.assemble).value := by
    rw [same]
  rw [walk_assemble firstAdmitted, walk_assemble secondAdmitted] at walks
  exact Program.layOut_injective 0 (Walk.mk.inj walks).1

/-- **Assembling, then walking.** A walk over an admitted program and whatever
follows it yields the instructions of the program, each at the sum of the sizes
before it, and then the items of what follows, moved by the size of the program.
With nothing behind it the program is found without a fault, and no other
admitted program has the same bytes. -/
theorem walk_assemble_append (decoder : Decoder) (program : Program)
    (admitted : ∀ instruction ∈ program,
      instruction.Admissible decoder.table decoder.limits.operandLength.toNat)
    (tail : Bytes) :
    (decoder.walk (program.assemble ++ tail)).value =
      ⟨program.layOut 0 ++
          (decoder.walk tail).value.items.map (Item.shift program.size),
        program.size + (decoder.walk tail).value.stop⟩ ∧
    (decoder.walk program.assemble).value = ⟨program.layOut 0, program.size⟩ ∧
    ∀ other : Program,
      (∀ instruction ∈ other,
        instruction.Admissible decoder.table decoder.limits.operandLength.toNat) →
      other.assemble = program.assemble → other = program := by
  refine ⟨?_, walk_assemble admitted, ?_⟩
  · apply Course.walk_eq
    apply Course.assemble_append admitted
    rw [Nat.zero_add]
    exact (decoder.course_walk tail).shift program.size
  · intro other otherAdmitted same
    exact assemble_injective otherAdmitted admitted same

/-- A push of three bytes, as many as the limit allows, a push of a constant size and a
return. The tail states one byte more than the limit, so its fault is moved by nine. -/
theorem walk_assemble_append_limit_three :
    let decoder : Decoder :=
      ⟨.ofFunction fun opcode =>
          if opcode = ⟨0x0c⟩ then .prefixed .one else if opcode = ⟨0x01⟩ then .fixed 2 else .empty,
        ⟨3⟩⟩
    let push : Instruction := ⟨⟨0x0c⟩, [1, 2, 3], .prefixed .one⟩
    let constant : Instruction := ⟨⟨0x01⟩, [4, 5], .fixed 2⟩
    let program : Program := [push, constant, .ret]
    (∀ instruction ∈ program,
      instruction.Admissible decoder.table decoder.limits.operandLength.toNat) ∧
    (decoder.walk (program.assemble ++ [0x0c, 4, 6, 7, 8, 9])).value =
      ⟨[.decoded 0 push, .decoded 5 constant, .decoded 8 .ret,
        .rejected (.truncatedOperand 11 4 4)], 9⟩ := by
  intro decoder push constant program
  have pushEntry : decoder.table.lookup ⟨0x0c⟩ = .prefixed .one := by simp [decoder]
  have admitted : ∀ instruction ∈ program,
      instruction.Admissible decoder.table decoder.limits.operandLength.toNat := by
    intro instruction member
    simp only [program, List.mem_cons, List.not_mem_nil, or_false] at member
    rcases member with rfl | rfl | rfl
    · exact ⟨pushEntry.symm, by decide, by decide⟩
    · exact ⟨by simp [decoder, constant], by decide, by decide⟩
    · exact ⟨by simp [decoder, Instruction.ret], rfl, by decide⟩
  have refused : decoder.takeInstruction 0 (0x0c :: ([4] ++ [6, 7, 8, 9])) =
      .error (.truncatedOperand 2 4 4) := by
    rw [takeInstruction_prefixed pushEntry rfl]
    rfl
  have rejected := (Course.rejected (List.cons_ne_nil _ _) refused).walk_eq
  have walked := (walk_assemble_append decoder program admitted [0x0c, 4, 6, 7, 8, 9]).1
  simp only [List.cons_append, List.nil_append] at rejected
  rw [rejected] at walked
  exact ⟨admitted, walked⟩

end Decoder

end Bytecode
