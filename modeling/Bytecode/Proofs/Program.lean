import Bytecode.Cursor
import Bytecode.Proofs.Layout

/-! # Programs

A program is a list of instructions. Its bytes are their written forms one after
another, and every instruction stands where the ones before it end.
-/

namespace Bytecode

/-- A list of instructions that follow each other. -/
abbrev Program := List Instruction

namespace Program

/-- The bytes of a program. -/
def assemble (program : Program) : Bytes := program.flatMap Instruction.wire

/-- The sum of the sizes of the instructions. -/
def size : Program → Nat
  | [] => 0
  | instruction :: rest => instruction.size + size rest

/-- The items of a program whose first instruction stands at a position. -/
def layOut (position : Nat) : Program → List Item
  | [] => []
  | instruction :: rest =>
      .decoded position instruction :: layOut (position + instruction.size) rest

@[simp] theorem assemble_nil : assemble [] = [] := rfl

@[simp] theorem assemble_cons (instruction : Instruction) (rest : Program) :
    assemble (instruction :: rest) = instruction.wire ++ assemble rest := rfl

@[simp] theorem size_nil : size [] = 0 := rfl

@[simp] theorem size_cons (instruction : Instruction) (rest : Program) :
    size (instruction :: rest) = instruction.size + size rest := rfl

@[simp] theorem layOut_nil (position : Nat) : layOut position [] = [] := rfl

@[simp] theorem layOut_cons (position : Nat) (instruction : Instruction) (rest : Program) :
    layOut position (instruction :: rest) =
      .decoded position instruction :: layOut (position + instruction.size) rest := rfl

@[simp] theorem length_layOut (position : Nat) (program : Program) :
    (layOut position program).length = program.length := by
  induction program generalizing position with
  | nil => rfl
  | cons instruction rest ih => simp only [layOut_cons, List.length_cons, ih]

theorem layOut_injective (position : Nat) {first second : Program}
    (same : layOut position first = layOut position second) : first = second := by
  induction first generalizing position second with
  | nil =>
      cases second with
      | nil => rfl
      | cons instruction rest => simp at same
  | cons instruction rest ih =>
      cases second with
      | nil => simp at same
      | cons other others =>
          simp only [layOut_cons, List.cons.injEq, Item.decoded.injEq, true_and] at same
          obtain ⟨rfl, tails⟩ := same
          rw [ih _ tails]

@[simp] theorem assemble_append (first second : Program) :
    assemble (first ++ second) = assemble first ++ assemble second :=
  List.flatMap_append

theorem layOut_append (position : Nat) (first second : Program) :
    layOut position (first ++ second) =
      layOut position first ++ layOut (position + first.size) second := by
  induction first generalizing position with
  | nil => rfl
  | cons instruction rest ih =>
      rw [List.cons_append, layOut_cons, layOut_cons, ih, size_cons, List.cons_append,
        Nat.add_assoc]

/-- An instruction found in a program stands behind the instructions before it. -/
theorem exists_split_of_mem_layOut {position place : Nat} {program : Program}
    {instruction : Instruction} (member : .decoded place instruction ∈ layOut position program) :
    ∃ before after : Program, program = before ++ instruction :: after ∧
      place = position + before.size := by
  induction program generalizing position with
  | nil => cases member
  | cons first rest ih =>
      rcases List.mem_cons.mp member with here | later
      · cases here
        exact ⟨[], rest, rfl, rfl⟩
      · obtain ⟨before, after, rfl, rfl⟩ := ih later
        exact ⟨first :: before, after, rfl, by rw [size_cons, Nat.add_assoc]⟩

/-- A program is no fault. -/
theorem rejected_not_mem_layOut (position : Nat) (program : Program) (fault : Fault) :
    .rejected fault ∉ layOut position program := by
  induction program generalizing position with
  | nil => exact List.not_mem_nil
  | cons instruction rest ih =>
      intro member
      rcases List.mem_cons.mp member with here | later
      · cases here
      · exact ih _ later

/-- A place inside a program is at or in one of its instructions. -/
theorem exists_split_of_lt_size {place : Nat} {program : Program} (inside : place < program.size) :
    ∃ (before : Program) (instruction : Instruction) (after : Program),
      program = before ++ instruction :: after ∧
      before.size ≤ place ∧ place < before.size + instruction.size := by
  induction program generalizing place with
  | nil => cases inside
  | cons first rest ih =>
      rw [size_cons] at inside
      rcases Nat.lt_or_ge place first.size with here | later
      · exact ⟨[], first, rest, rfl, Nat.zero_le _, by rwa [size_nil, Nat.zero_add]⟩
      · have further : place - first.size < size rest := by omega
        obtain ⟨before, instruction, after, rfl, lower, upper⟩ := ih further
        refine ⟨first :: before, instruction, after, rfl, ?_, ?_⟩
        · rw [size_cons]
          omega
        · rw [size_cons]
          omega

/-- Instructions take at least one byte each. -/
theorem length_le_size (program : Program) : program.length ≤ program.size := by
  induction program with
  | nil => exact Nat.le_refl 0
  | cons instruction rest ih =>
      have positive := instruction.size_pos
      rw [List.length_cons, size_cons]
      omega

/-- The bytes of an admitted program are as many as the sizes of its instructions add up to. -/
theorem length_assemble {decoder : Decoder} {program : Program}
    (admitted : ∀ instruction ∈ program, decoder.Admits instruction) :
    program.assemble.length = program.size := by
  induction program with
  | nil => rfl
  | cons instruction rest ih =>
      have first := admitted instruction List.mem_cons_self
      rw [assemble_cons, List.length_append, first.length_wire, size_cons,
        ih fun later member => admitted later (List.mem_cons_of_mem _ member)]

end Program

end Bytecode
