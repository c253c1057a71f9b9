import Bytecode.Proofs.Rejection
import Bytecode.Proofs.Walk.Agreement
import Bytecode.Proofs.Walk.Assembly

/-! # Walks over the front of a script

A script that is cut off gives the instructions that end before the cut. If the cut falls
between two of them nothing else is yielded; a cut inside an instruction gives the fault
of that instruction (`Decoder.decode_take_of_inside`), and a cut behind the place where
the whole script gave a fault gives a fault there (`Decoder.exists_error_of_take`).
-/

namespace Bytecode

/-- The fault of an instruction at `position` in bytes that end inside it. -/
def Instruction.cutFault (instruction : Instruction) (position finish : Nat) : Fault :=
  match instruction.encoding with
  | .fixed _ => instruction.operandFault position finish
  | .prefixed width =>
      if finish < position + 1 + width.bytes then
        .outOfBounds (position + 1) width.bytes (finish - position - 1)
      else instruction.operandFault position finish

namespace Decoder

variable {decoder : Decoder} {script : Bytes} {position cut : Nat}

/-- What is declared in front of a cut is declared in what the cut leaves. -/
theorem Declares.take {start declared : Nat}
    (declares : decoder.Declares script position start declared) (within : start ≤ cut) :
    decoder.Declares (script.take cut) position start declared := by
  cases declares with
  | fixed found entry =>
      exact .fixed ((List.getElem?_take_of_lt within).trans found) entry
  | @prefixed first width found entry fits =>
      have front : position < cut := by omega
      have field : ((script.take cut).drop (position + 1)).take width.bytes =
          (script.drop (position + 1)).take width.bytes := by
        rw [List.drop_take, List.take_take, Nat.min_eq_left (by omega)]
      have room : position + 1 + width.bytes ≤ (script.take cut).length := by
        rw [List.length_take]
        exact Nat.le_min.mpr ⟨within, fits⟩
      have declares := Declares.prefixed ((List.getElem?_take_of_lt front).trans found) entry room
      rwa [field] at declares

/-- **A cut inside an instruction.** If the length field is cut off it is found missing,
and otherwise the operand is found too short. -/
theorem decode_take_of_inside {instruction : Instruction}
    (decoded : decoder.decode script position = .ok instruction) (begun : position < cut)
    (unfinished : cut < position + instruction.size) :
    decoder.decode (script.take cut) position = .error (instruction.cutFault position cut) := by
  obtain ⟨admitted, -⟩ := admits_of_takeInstruction decoded
  have declares := declares_of_decode decoded
  have size := admitted.size_eq
  have fits := size_le_of_takeInstruction decoded
  rw [List.length_drop] at fits
  have length : (script.take cut).length = cut := List.length_take_of_le (by omega)
  have overlong (fieldThere : position + instruction.header ≤ cut) :
      decoder.Rejects (script.take cut) position (instruction.operandFault position cut) := by
    have tooShort : (script.take cut).length - (position + instruction.header) <
        instruction.operand.length := by omega
    have rejects := Rejects.overlong (declares.take fieldThere) (.inr tooShort)
    rwa [length] at rejects
  apply Rejects.decode_eq
  have found : (script.take cut)[position]? = some instruction.opcode.byte :=
    (List.getElem?_take_of_lt begun).trans (getElem?_of_decode decoded)
  cases encoding : instruction.encoding with
  | fixed count =>
      have fieldThere : position + instruction.header ≤ cut := by
        simp only [Instruction.header, encoding]
        exact begun
      simp only [Instruction.cutFault, encoding]
      exact overlong fieldThere
  | prefixed width =>
      simp only [Instruction.cutFault, encoding]
      split
      · next fieldCut =>
          have entry : decoder.table.lookup instruction.opcode = .prefixed width :=
            admitted.encoding_eq.symm.trans encoding
          have short : (script.take cut).length - position - 1 < width.bytes := by omega
          have rejects := Rejects.missingLength found entry short
          rwa [length] at rejects
      · next fieldThere =>
          apply overlong
          simp only [Instruction.header, encoding]
          omega

/-- What gives a fault gives one in front of every cut. -/
theorem exists_error_of_take {fault : Fault}
    (refused : decoder.decode script position = .error fault) (cut : Nat) :
    ∃ met, decoder.decode (script.take cut) position = .error met := by
  cases read : decoder.decode (script.take cut) position with
  | error met => exact ⟨met, rfl⟩
  | ok instruction =>
      obtain ⟨admitted, front⟩ := admits_of_takeInstruction read
      rw [List.drop_take] at front
      have whole : decoder.decode script position = .ok instruction :=
        takeInstruction_eq_ok_iff.mpr ⟨admitted, (List.prefix_take_iff.mp front).1⟩
      cases refused.symm.trans whole

end Decoder

/-- Whether an item is an instruction that ends at `cut` or before. -/
def Item.endsBy (cut : Nat) : Item → Bool
  | .decoded position instruction => position + instruction.size ≤ cut
  | .rejected _ => false

namespace Program

variable {cut : Nat}

/-- Nothing of a program that starts behind a cut ends before it. -/
theorem filter_endsBy_layOut_of_lt {position : Nat} (behind : cut < position)
    (program : Program) : (program.layOut position).filter (Item.endsBy cut) = [] := by
  induction program generalizing position with
  | nil => rfl
  | cons instruction rest ih =>
      have ends : Item.endsBy cut (.decoded position instruction) = false :=
        decide_eq_false (by omega)
      have later : cut < position + instruction.size := by omega
      rw [layOut_cons, List.filter_cons_of_neg (by rw [ends]; exact Bool.false_ne_true), ih later]

/-- All of a program that ends before a cut does so instruction by instruction. -/
theorem filter_endsBy_layOut_of_le {position : Nat} {program : Program}
    (before : position + program.size ≤ cut) :
    (program.layOut position).filter (Item.endsBy cut) = program.layOut position := by
  induction program generalizing position with
  | nil => rfl
  | cons instruction rest ih =>
      rw [size_cons, ← Nat.add_assoc] at before
      have ends : Item.endsBy cut (.decoded position instruction) = true :=
        decide_eq_true (by omega)
      rw [layOut_cons, List.filter_cons_of_pos ends, ih before]

/-- Of a program that a cut parts, the instructions before the cut remain. -/
theorem filter_endsBy_layOut_append {before after : Program} (ended : before.size ≤ cut)
    (unfinished : ∀ next ∈ after.head?, cut < before.size + next.size) :
    ((before ++ after).layOut 0).filter (Item.endsBy cut) = before.layOut 0 := by
  rw [layOut_append, List.filter_append, Nat.zero_add,
    filter_endsBy_layOut_of_le (by rwa [Nat.zero_add])]
  cases after with
  | nil => rw [layOut_nil, List.filter_nil, List.append_nil]
  | cons next rest =>
      have behind := unfinished next rfl
      have ends : Item.endsBy cut (.decoded before.size next) = false :=
        decide_eq_false (by omega)
      rw [layOut_cons, List.filter_cons_of_neg (by rw [ends]; exact Bool.false_ne_true),
        filter_endsBy_layOut_of_lt behind, List.append_nil]

end Program

/-- **A place between the items of a walk.** The position of one of them, that of a fault
included, or the end of bytes that were passed to their end. -/
def Walk.Bounds (walk : Walk) (finish place : Nat) : Prop :=
  walk.Visits place ∨ place = finish ∧ ∀ fault, .rejected fault ∉ walk.items

namespace Decoder

/-- **A walk taken apart.** The program that it passes and the bytes ahead of where it
stops, perhaps at a fault. -/
structure Parts (decoder : Decoder) (script : Bytes) (program : Program) (ahead : Bytes)
    (met : Option Fault) : Prop where
  script_eq : script = program.assemble ++ ahead
  admitted : ∀ instruction ∈ program, decoder.Admits instruction
  items_eq : (decoder.walk script).value.items =
    program.layOut 0 ++ met.toList.map Item.rejected
  stop_eq : (decoder.walk script).value.stop = program.size
  stops : decoder.Stops program.size ahead met

theorem exists_parts (decoder : Decoder) (script : Bytes) :
    ∃ program ahead met, Parts decoder script program ahead met := by
  obtain ⟨program, ahead, met, split, admitted, items, stop, stops⟩ :=
    (decoder.course_walk script).exists_program
  rw [Nat.zero_add] at stop
  exact ⟨program, ahead, met, split, admitted, items, stop, stop ▸ stops⟩

/-- Where a walk may stop it yields the fault met there, if there is one. -/
theorem Stops.course {decoder : Decoder} {position : Nat} {ahead : Bytes} {met : Option Fault}
    (stops : decoder.Stops position ahead met) :
    Course decoder position ahead (met.toList.map Item.rejected) position := by
  cases met with
  | none =>
      obtain rfl : ahead = [] := stops
      exact .ended position
  | some fault => exact .rejected stops.1 stops.2

namespace Parts

variable {decoder : Decoder} {script ahead : Bytes} {program before after : Program}
  {met : Option Fault} {cut : Nat}

theorem length_eq (parts : decoder.Parts script program ahead met) :
    script.length = program.size + ahead.length := by
  rw [parts.script_eq, List.length_append, Program.length_assemble parts.admitted]

/-- An instruction of a walk parts its program. -/
theorem exists_split (parts : decoder.Parts script program ahead met) {position : Nat}
    {instruction : Instruction}
    (member : .decoded position instruction ∈ (decoder.walk script).value.items) :
    ∃ before after : Program, program = before ++ instruction :: after ∧
      position = before.size := by
  rw [parts.items_eq] at member
  rcases List.mem_append.mp member with passed | refused
  · obtain ⟨before, after, split, place⟩ := Program.exists_split_of_mem_layOut passed
    exact ⟨before, after, split, by rwa [Nat.zero_add] at place⟩
  · obtain ⟨fault, -, other⟩ := List.mem_map.mp refused
    cases other

/-- The fault of a walk is met where it stops. -/
theorem met_eq (parts : decoder.Parts script program ahead met) {fault : Fault}
    (member : .rejected fault ∈ (decoder.walk script).value.items) : met = some fault := by
  rw [parts.items_eq] at member
  rcases List.mem_append.mp member with passed | refused
  · exact absurd passed (Program.rejected_not_mem_layOut 0 program fault)
  · obtain ⟨other, found, same⟩ := List.mem_map.mp refused
    cases same
    exact Option.mem_toList.mp found

/-- **A walk over what a cut leaves.** If a cut falls behind the instructions `before` and
not behind the next one, these are passed, and what is met there comes last. -/
theorem walk_take (parts : decoder.Parts script (before ++ after) ahead met)
    (ended : before.size ≤ cut) (unfinished : ∀ next ∈ after.head?, cut < before.size + next.size)
    {metThere : Option Fault}
    (stops : decoder.Stops before.size ((script.take cut).drop before.size) metThere) :
    (decoder.walk (script.take cut)).value =
      ⟨(decoder.walk script).value.items.filter (Item.endsBy cut) ++
        metThere.toList.map Item.rejected, before.size⟩ := by
  have admitted : ∀ instruction ∈ before, decoder.Admits instruction := fun instruction member =>
    parts.admitted instruction (List.mem_append_left after member)
  have length := Program.length_assemble admitted
  have front : (script.take cut).take before.size = before.assemble := by
    rw [List.take_take, Nat.min_eq_left ended, parts.script_eq, Program.assemble_append,
      List.append_assoc, List.take_left' length]
  have kept : (decoder.walk script).value.items.filter (Item.endsBy cut) = before.layOut 0 := by
    have faults : (met.toList.map Item.rejected).filter (Item.endsBy cut) = [] := by
      cases met <;> rfl
    rw [parts.items_eq, List.filter_append, faults, List.append_nil,
      Program.filter_endsBy_layOut_append ended unfinished]
  have course : Course decoder 0 (before.assemble ++ (script.take cut).drop before.size)
      (before.layOut 0 ++ metThere.toList.map Item.rejected) before.size :=
    Course.assemble_append admitted (by rw [Nat.zero_add]; exact stops.course)
  rw [← front, List.take_append_drop] at course
  rw [kept]
  exact course.walk_eq

/-- A fault that a cut causes behind the instructions `before` comes last. -/
theorem walk_take_of_decode (parts : decoder.Parts script (before ++ after) ahead met)
    (begun : before.size < cut) (within : cut ≤ script.length)
    (unfinished : ∀ next ∈ after.head?, cut < before.size + next.size) {fault : Fault}
    (refused : decoder.decode (script.take cut) before.size = .error fault) :
    (decoder.walk (script.take cut)).value =
      ⟨(decoder.walk script).value.items.filter (Item.endsBy cut) ++ [.rejected fault],
        before.size⟩ := by
  have nonempty : (script.take cut).drop before.size ≠ [] := by
    rw [ne_eq, List.drop_eq_nil_iff, List.length_take_of_le within]
    exact Nat.not_le_of_lt begun
  have stops : decoder.Stops before.size ((script.take cut).drop before.size) (some fault) :=
    ⟨nonempty, refused⟩
  exact parts.walk_take (Nat.le_of_lt begun) unfinished stops

/-- A place between the items parts the program. -/
theorem exists_split_of_bounds (parts : decoder.Parts script program ahead met)
    (bounds : (decoder.walk script).value.Bounds script.length cut) :
    ∃ before after : Program, program = before ++ after ∧ cut = before.size := by
  rcases bounds with visits | ⟨finish, faultless⟩
  · cases visits with
    | decoded member =>
        obtain ⟨before, after, split, place⟩ := parts.exists_split member
        exact ⟨before, _, split, place⟩
    | rejected member => exact ⟨program, [], (List.append_nil _).symm, parts.stop_eq⟩
  · cases met with
    | none =>
        obtain rfl : ahead = [] := parts.stops
        exact ⟨program, [], (List.append_nil _).symm, finish.trans parts.length_eq⟩
    | some fault =>
        refine absurd ?_ (faultless fault)
        rw [parts.items_eq]
        exact List.mem_append_right _ (List.mem_singleton.mpr rfl)

theorem walk_take_of_bounds (parts : decoder.Parts script program ahead met)
    (bounds : (decoder.walk script).value.Bounds script.length cut) :
    (decoder.walk (script.take cut)).value =
      ⟨(decoder.walk script).value.items.filter (Item.endsBy cut), cut⟩ := by
  obtain ⟨before, after, rfl, rfl⟩ := parts.exists_split_of_bounds bounds
  have unfinished : ∀ next ∈ after.head?, before.size < before.size + next.size :=
    fun next _ => Nat.lt_add_of_pos_right next.size_pos
  have nothing : decoder.Stops before.size ((script.take before.size).drop before.size) none :=
    List.drop_eq_nil_of_le (List.length_take_le _ _)
  have walked := parts.walk_take (Nat.le_refl _) unfinished nothing
  rwa [Option.toList_none, List.map_nil, List.append_nil] at walked

theorem walk_take_of_inside (parts : decoder.Parts script program ahead met) {position : Nat}
    {instruction : Instruction}
    (member : .decoded position instruction ∈ (decoder.walk script).value.items)
    (begun : position < cut) (unfinished : cut < position + instruction.size) :
    (decoder.walk (script.take cut)).value =
      ⟨(decoder.walk script).value.items.filter (Item.endsBy cut) ++
        [.rejected (instruction.cutFault position cut)], position⟩ := by
  have decoded := (decoder.course_walk script).decode_of_mem rfl member
  have fits := size_le_of_takeInstruction decoded
  rw [List.length_drop] at fits
  obtain ⟨before, after, rfl, rfl⟩ := parts.exists_split member
  refine parts.walk_take_of_decode begun (by omega) ?_
    (decode_take_of_inside decoded begun unfinished)
  intro next first
  cases first
  exact unfinished

theorem walk_take_of_behind (parts : decoder.Parts script program ahead met) {fault : Fault}
    (member : .rejected fault ∈ (decoder.walk script).value.items)
    (behind : (decoder.walk script).value.stop < cut) (within : cut ≤ script.length) :
    ∃ there, decoder.decode (script.take cut) (decoder.walk script).value.stop = .error there ∧
      (decoder.walk (script.take cut)).value =
        ⟨(decoder.walk script).value.items.filter (Item.endsBy cut) ++ [.rejected there],
          (decoder.walk script).value.stop⟩ := by
  obtain ⟨refused, -⟩ := (decoder.course_walk script).decode_stop_of_mem rfl member
  obtain ⟨there, refused⟩ := exists_error_of_take refused cut
  rw [parts.stop_eq] at behind refused ⊢
  rw [← List.append_nil program] at parts
  refine ⟨there, refused, parts.walk_take_of_decode behind within ?_ refused⟩
  intro next first
  cases first

/-- A cut falls between two items of a walk, into an instruction, or behind a fault. -/
theorem bounds_or_inside_or_behind (parts : decoder.Parts script program ahead met)
    (within : cut ≤ script.length) :
    (decoder.walk script).value.Bounds script.length cut ∨
      (∃ position instruction,
        .decoded position instruction ∈ (decoder.walk script).value.items ∧
        position < cut ∧ cut < position + instruction.size) ∨
      ∃ fault, .rejected fault ∈ (decoder.walk script).value.items ∧
        (decoder.walk script).value.stop < cut := by
  rcases Nat.lt_or_ge cut program.size with inside | passed
  · obtain ⟨before, instruction, after, rfl, begun, unfinished⟩ :=
      Program.exists_split_of_lt_size inside
    have member : .decoded before.size instruction ∈ (decoder.walk script).value.items := by
      rw [parts.items_eq, Program.layOut_append, Nat.zero_add, Program.layOut_cons]
      exact List.mem_append_left _ (List.mem_append_right _ List.mem_cons_self)
    rcases Nat.eq_or_lt_of_le begun with rfl | begun
    · exact .inl (.inl (.decoded member))
    · exact .inr (.inl ⟨before.size, instruction, member, begun, unfinished⟩)
  · cases met with
    | none =>
        obtain rfl : ahead = [] := parts.stops
        have finish : cut = script.length :=
          Nat.le_antisymm within (parts.length_eq ▸ passed)
        refine .inl (.inr ⟨finish, ?_⟩)
        intro fault member
        cases parts.met_eq member
    | some fault =>
        have member : .rejected fault ∈ (decoder.walk script).value.items := by
          rw [parts.items_eq]
          exact List.mem_append_right _ (List.mem_singleton.mpr rfl)
        rw [← parts.stop_eq] at passed
        rcases Nat.eq_or_lt_of_le passed with rfl | behind
        · exact .inl (.inl (.rejected member))
        · exact .inr (.inr ⟨fault, member, behind⟩)

end Parts

/-- **Walking what a cut leaves of a script.** The walk yields the instructions of the whole
walk that end before the cut, as they were, and perhaps one fault after them. There is none
if the cut falls between two items or at the end of a script without a fault. If it falls
inside an instruction, its length field is missing or its operand too short; if it falls
behind the fault of the whole walk, a fault is met at the same place. These are all the
ways in which a cut can fall. -/
theorem walk_take_of_le_length (decoder : Decoder) (script : Bytes) (cut : Nat)
    (within : cut ≤ script.length) :
    let whole := (decoder.walk script).value
    let kept := whole.items.filter (Item.endsBy cut)
    let front := (decoder.walk (script.take cut)).value
    (∃ met : Option Fault, front.items = kept ++ met.toList.map Item.rejected) ∧
    (whole.Bounds script.length cut → front = ⟨kept, cut⟩) ∧
    (∀ position instruction, .decoded position instruction ∈ whole.items →
      position < cut → cut < position + instruction.size →
      front = ⟨kept ++ [.rejected (instruction.cutFault position cut)], position⟩) ∧
    (∀ fault, .rejected fault ∈ whole.items → whole.stop < cut →
      ∃ there, decoder.decode (script.take cut) whole.stop = .error there ∧
        front = ⟨kept ++ [.rejected there], whole.stop⟩) ∧
    (whole.Bounds script.length cut ∨
      (∃ position instruction, .decoded position instruction ∈ whole.items ∧
        position < cut ∧ cut < position + instruction.size) ∨
      ∃ fault, .rejected fault ∈ whole.items ∧ whole.stop < cut) := by
  obtain ⟨program, ahead, met, parts⟩ := decoder.exists_parts script
  intro whole kept front
  have ways := parts.bounds_or_inside_or_behind within
  have yielded : ∃ met : Option Fault, front.items = kept ++ met.toList.map Item.rejected := by
    rcases ways with bounds | ⟨position, instruction, member, begun, unfinished⟩ |
      ⟨fault, member, behind⟩
    · refine ⟨none, ?_⟩
      rw [Option.toList_none, List.map_nil, List.append_nil]
      exact congrArg Walk.items (parts.walk_take_of_bounds bounds)
    · exact ⟨some _, congrArg Walk.items (parts.walk_take_of_inside member begun unfinished)⟩
    · obtain ⟨there, -, walked⟩ := parts.walk_take_of_behind member behind within
      exact ⟨some there, congrArg Walk.items walked⟩
  refine ⟨yielded, parts.walk_take_of_bounds, ?_, ?_, ways⟩
  · intro position instruction member begun unfinished
    exact parts.walk_take_of_inside member begun unfinished
  · intro fault member behind
    exact parts.walk_take_of_behind member behind within

/-- Cuts of a script with a push behind another instruction and a length field that lacks a
byte: between the items, in the length field and the operand of the push, and behind the
fault. -/
theorem walk_take_of_le_length_each_way :
    let decoder : Decoder :=
      ⟨.ofFunction fun opcode => if opcode = ⟨0x0d⟩ then .prefixed .two else .empty, .standard⟩
    let script : Bytes := [0x40, 0x0d, 3, 0, 1, 2, 3, 0x0d, 9]
    let whole := (decoder.walk script).value
    let first : Item := .decoded 0 ⟨⟨0x40⟩, [], .fixed 0⟩
    let push : Instruction := ⟨⟨0x0d⟩, [1, 2, 3], .prefixed .two⟩
    8 ≤ script.length ∧
    (whole.Bounds script.length 7 ∧
      (decoder.walk (script.take 7)).value = ⟨[first, .decoded 1 push], 7⟩) ∧
    (.decoded 1 push ∈ whole.items ∧ 1 < 3 ∧ 5 < 1 + push.size ∧
      (decoder.walk (script.take 3)).value = ⟨[first, .rejected (.outOfBounds 2 2 1)], 1⟩ ∧
      (decoder.walk (script.take 5)).value =
        ⟨[first, .rejected (.truncatedOperand 4 3 1)], 1⟩) ∧
    .rejected (.outOfBounds 8 2 1) ∈ whole.items ∧ whole.stop < 8 ∧
      (decoder.walk (script.take 8)).value =
        ⟨[first, .decoded 1 push, .rejected (.outOfBounds 8 2 0)], 7⟩ := by
  intro decoder script whole first push
  have entry : decoder.table.lookup ⟨0x0d⟩ = .prefixed .two := by simp [decoder]
  have plain : decoder.table.lookup ⟨0x40⟩ = .fixed 0 := by simp [decoder, Encoding.empty]
  have passed : decoder.takeInstruction 0 script = .ok ⟨⟨0x40⟩, [], .fixed 0⟩ := by
    rw [takeInstruction_fixed plain]
    rfl
  have pushed : decoder.takeInstruction 1 (0x0d :: ([3, 0] ++ [1, 2, 3, 0x0d, 9])) =
      .ok push := by
    rw [takeInstruction_prefixed entry rfl]
    rfl
  have refused : decoder.takeInstruction 7 [0x0d, 9] = .error (.outOfBounds 8 2 1) :=
    takeInstruction_short entry (by decide) 7
  have walked : whole = ⟨[first, .decoded 1 push, .rejected (.outOfBounds 8 2 1)], 7⟩ :=
    (Course.decoded passed (.decoded pushed (.rejected (List.cons_ne_nil _ _) refused))).walk_eq
  have pushMember : .decoded 1 push ∈ whole.items := by simp [walked]
  have faultMember : .rejected (.outOfBounds 8 2 1) ∈ whole.items := by simp [walked]
  have bounds : whole.Bounds script.length 7 := by
    have visits := Walk.Visits.rejected faultMember
    rw [walked] at visits ⊢
    exact .inl visits
  have behind : whole.stop < 8 := by rw [walked]; decide
  obtain ⟨-, between, -⟩ := walk_take_of_le_length decoder script 7 (by decide)
  obtain ⟨-, -, inField, -⟩ := walk_take_of_le_length decoder script 3 (by decide)
  obtain ⟨-, -, inOperand, -⟩ := walk_take_of_le_length decoder script 5 (by decide)
  obtain ⟨-, -, -, after, -⟩ := walk_take_of_le_length decoder script 8 (by decide)
  refine ⟨by decide, ⟨bounds, ?_⟩, ⟨pushMember, by decide, by decide, ?_, ?_⟩, faultMember,
    behind, ?_⟩
  · rw [between bounds]
    change Walk.mk (whole.items.filter _) 7 = _
    rw [walked]
    rfl
  · rw [inField 1 push pushMember (by decide) (by decide)]
    change Walk.mk (whole.items.filter _ ++ _) 1 = _
    rw [walked]
    rfl
  · rw [inOperand 1 push pushMember (by decide) (by decide)]
    change Walk.mk (whole.items.filter _ ++ _) 1 = _
    rw [walked]
    rfl
  · obtain ⟨there, met, cut⟩ := after _ faultMember behind
    change decoder.decode (script.take 8) whole.stop = _ at met
    change _ = Walk.mk (whole.items.filter _ ++ _) whole.stop at cut
    rw [walked] at met cut
    have lacking : decoder.takeInstruction 7 [0x0d] = .error (.outOfBounds 8 2 0) :=
      takeInstruction_short entry (by decide) 7
    cases lacking.symm.trans met
    exact cut

end Decoder

end Bytecode
