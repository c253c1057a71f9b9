import Bytecode.Proofs.Program
import Bytecode.Proofs.Walk.Course

/-! # Walks tile their scripts

A walk passes a program that the decoder admits and stops where the script ends or
cannot be read on (`Course.exists_program`). Nothing between the start and the
stop is left out or passed twice (`Course.tiling`).
-/

namespace Bytecode

/-- How a walk may stop: with nothing ahead, or at bytes that give a fault. -/
def Decoder.Stops (decoder : Decoder) (position : Nat) (ahead : Bytes) : Option Fault → Prop
  | none => ahead = []
  | some fault => ahead ≠ [] ∧ decoder.takeInstruction position ahead = .error fault

/-- A fault is met before at least one byte. -/
theorem Decoder.Stops.length_le {decoder : Decoder} {position : Nat} {ahead : Bytes}
    {met : Option Fault} (stops : decoder.Stops position ahead met) :
    met.toList.length ≤ ahead.length := by
  cases met with
  | none => exact Nat.zero_le _
  | some fault => exact List.length_pos_iff.mpr stops.1

namespace Course

variable {decoder : Decoder} {position : Nat} {bytes : Bytes} {items : List Item} {stop : Nat}

/-- **What a walk passes.** The bytes of a course are those of an admitted program
and, behind them, bytes at which the walk stops. -/
theorem exists_program (course : Course decoder position bytes items stop) :
    ∃ (program : Program) (ahead : Bytes) (met : Option Fault),
      bytes = program.assemble ++ ahead ∧
      (∀ instruction ∈ program, decoder.Admits instruction) ∧
      items = program.layOut position ++ met.toList.map Item.rejected ∧
      stop = position + program.size ∧
      decoder.Stops stop ahead met := by
  induction course with
  | ended position =>
      exact ⟨[], [], none, rfl, fun _ member => absurd member List.not_mem_nil, rfl, rfl, rfl⟩
  | @rejected position bytes fault nonempty refused =>
      exact ⟨[], bytes, some fault, rfl, fun _ member => absurd member List.not_mem_nil, rfl, rfl,
        nonempty, refused⟩
  | @decoded position bytes instruction items stop taken _ ih =>
      obtain ⟨program, ahead, met, split, admitted, rfl, rfl, stops⟩ := ih
      obtain ⟨first, front⟩ := Decoder.admits_of_takeInstruction taken
      refine ⟨instruction :: program, ahead, met, ?_, ?_, rfl, ?_, stops⟩
      -- The written form is cut off the front; behind it the course goes on.
      · have cut : bytes = instruction.wire ++ bytes.drop instruction.wire.length :=
          (List.prefix_iff_eq_append.mp front).symm
        rw [first.length_wire, split] at cut
        rw [Program.assemble_cons, List.append_assoc]
        exact cut
      · intro other member
        rcases List.mem_cons.mp member with rfl | later
        · exact first
        · exact admitted other later
      · rw [Program.size_cons, Nat.add_assoc]

/-- Each instruction of a course is what is decoded at its own position. -/
theorem decode_of_mem {script : Bytes} (course : Course decoder position bytes items stop)
    (ahead : bytes = script.drop position) {place : Nat} {instruction : Instruction}
    (member : .decoded place instruction ∈ items) :
    decoder.decode script place = .ok instruction := by
  induction course with
  | ended position => cases member
  | rejected _ _ => simp at member
  | @decoded position bytes first items stop taken _ ih =>
      subst ahead
      rcases List.mem_cons.mp member with here | later
      · cases here
        exact taken
      · exact ih List.drop_drop later

/-- The fault of a course is what is decoded where the course stops. -/
theorem decode_stop_of_mem {script : Bytes} (course : Course decoder position bytes items stop)
    (ahead : bytes = script.drop position) {fault : Fault} (member : .rejected fault ∈ items) :
    decoder.decode script stop = .error fault ∧ stop < script.length := by
  induction course with
  | ended position => cases member
  | @rejected position bytes met nonempty refused =>
      subst ahead
      obtain rfl : fault = met := by simpa using member
      exact ⟨refused, Nat.lt_of_not_le (mt List.drop_eq_nil_iff.mpr nonempty)⟩
  | @decoded position bytes first items stop taken _ ih =>
      subst ahead
      rcases List.mem_cons.mp member with here | later
      · cases here
      · exact ih List.drop_drop later

end Course

/-- **Items that tile a script.** A program and perhaps one fault after it: the
instructions follow each other from the start without a gap, each is what is
decoded at its place, and together they are the bytes up to the stop. -/
structure Tiling (decoder : Decoder) (script : Bytes) (walk : Walk) (program : Program)
    (met : Option Fault) : Prop where
  items_eq : walk.items = program.layOut 0 ++ met.toList.map Item.rejected
  length_le : walk.items.length ≤ script.length
  decode_eq : ∀ position instruction, .decoded position instruction ∈ walk.items →
    decoder.decode script position = .ok instruction
  assemble_eq : program.assemble = script.take walk.stop
  stops : match met with
    | none => walk.stop = script.length
    | some fault =>
        decoder.decode script walk.stop = .error fault ∧ walk.stop < script.length

theorem Course.tiling {decoder : Decoder} {script : Bytes} {items : List Item} {stop : Nat}
    (course : Course decoder 0 script items stop) :
    ∃ (program : Program) (met : Option Fault),
      Tiling decoder script ⟨items, stop⟩ program met := by
  obtain ⟨program, ahead, met, split, admitted, itemsEq, stopEq, stops⟩ := course.exists_program
  have length := Program.length_assemble admitted
  rw [Nat.zero_add] at stopEq
  have passed : program.assemble = script.take stop := by
    rw [split, stopEq, ← length, List.take_left]
  have left : script.drop stop = ahead := by
    rw [split, stopEq, ← length, List.drop_left]
  have total : script.length = stop + ahead.length := by
    rw [split, List.length_append, length, stopEq]
  have counted : items.length = program.length + met.toList.length := by
    rw [itemsEq, List.length_append, Program.length_layOut, List.length_map]
  -- An instruction takes at least one byte, and a fault is met before at least one.
  have bounded := program.length_le_size
  have room := stops.length_le
  have decoded : ∀ place instruction, .decoded place instruction ∈ items →
      decoder.decode script place = .ok instruction := by
    intro place instruction member
    exact course.decode_of_mem rfl member
  refine ⟨program, met, itemsEq, ?_, decoded, passed, ?_⟩
  · change items.length ≤ script.length
    omega
  · cases met with
    | none =>
        obtain rfl : ahead = [] := stops
        exact total.symm
    | some fault =>
        rw [Option.toList_some, List.length_singleton] at room
        refine ⟨?_, by change stop < script.length; omega⟩
        change decoder.takeInstruction stop (script.drop stop) = .error fault
        rw [left]
        exact stops.2

/-- **Walks tile.** Stepping a cursor from the start of a script comes to an end
after no more items than the script has bytes, and the items tile the script up
to the position of the cursor. -/
theorem Decoder.walk_tiles (decoder : Decoder) (script : Bytes) :
    ∃ (stopped : Cursor) (program : Program) (met : Option Fault),
      (Cursor.start decoder script).Yields (decoder.walk script).value.items stopped ∧
      stopped.next? = none ∧
      stopped.position = (decoder.walk script).value.stop ∧
      Tiling decoder script (decoder.walk script).value program met := by
  obtain ⟨program, met, tiling⟩ := (decoder.course_walk script).tiling
  obtain ⟨yields, finished⟩ := (Cursor.start decoder script).yields_drain
  exact ⟨_, program, met, yields, finished, rfl, tiling⟩

end Bytecode
