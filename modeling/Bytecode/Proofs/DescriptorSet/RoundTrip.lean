import Bytecode.DescriptorSet.Load
import Bytecode.DescriptorSet.Printer
import Bytecode.Proofs.Json.Spelling

/-! # Descriptor sets read back as written

A reader that meets a written descriptor set goes from place to place as the parts of the
text follow each other: over the digits of a value (`Reader.run_numeral`), over a member
(`Reader.run_writeField`), over a descriptor (`Reader.run_writeDescriptor`) and over the
elements of the set (`Reader.run_elements`). At the end it holds the descriptors that were
written (`read_write`).
-/

namespace Bytecode.DescriptorSet

/-! ## Values that fit -/

/-- The number of values of a field. -/
def Field.range : Field → Nat
  | .opcode | .prefixWidth => 256
  | .fixedSize => 4294967296

theorem Field.range_le (field : Field) : field.range ≤ Nat.pow 2 64 := by cases field <;> decide

/-- The fields with a value of one of them. -/
def Fields.set (fields : Fields) (value : Nat) : Field → Fields
  | .opcode => { fields with opcode := some (.ofNat value) }
  | .prefixWidth => { fields with prefixWidth := some (.ofNat value) }
  | .fixedSize => { fields with fixedSize := some (.ofNat value) }

/-- A whole number is stored exactly if it is one of the values of the field. -/
theorem Fields.store_whole (fields : Fields) (field : Field) (value : Int) :
    fields.store field (.whole value) =
      if 0 ≤ value ∧ value < field.range then .ok (fields.set value.toNat field)
      else .error (.outOfRange value field.shape) := by
  cases field <;> rfl

theorem Fields.store_of_lt (fields : Fields) {field : Field} {value : Nat}
    (fits : value < field.range) :
    fields.store field (.whole value) = .ok (fields.set value field) := by
  rw [store_whole, if_pos (by omega), Int.toNat_natCast]

/-! ## Keys -/

theorem Field.ofName?_name (field : Field) : ofName? field.name = some field := by
  cases field <;> rfl

theorem Field.isPlain_name (field : Field) :
    ∀ char ∈ field.name.toList, Json.isPlain char = true := by
  have every : field.name.toList.all Json.isPlain = true := by cases field <;> rfl
  exact List.all_eq_true.mp every

namespace Place

/-- A key may stand at the place, behind members with the values of some fields. -/
inductive AwaitsKey : Place → Fields → Prop where
  | first : AwaitsKey .firstKey .unread
  | next (fields : Fields) : AwaitsKey (.key fields) fields

/-- An element of the set may stand at the place. -/
inductive AwaitsElement : Place → Prop where
  | first : AwaitsElement .firstElement
  | next : AwaitsElement .element

end Place

namespace Reader

variable {completed : List Descriptor} {place : Place} {fields : Fields} {field : Field}

theorem run_cons_of_step {reader middle : Reader} {char : Char}
    (stepped : reader.step char = .ok middle) (rest : List Char) :
    reader.run (char :: rest) = middle.run rest := by
  rw [run_cons, stepped]
  rfl

theorem run_append_of_run {reader middle : Reader} {front : List Char}
    (led : reader.run front = .ok middle) (back : List Char) :
    reader.run (front ++ back) = middle.run back := by
  rw [run_append, led]
  rfl

theorem run_singleton (reader : Reader) (char : Char) : reader.run [char] = reader.step char := by
  rw [run_cons]
  cases reader.step char <;> rfl

/-! ## Numbers -/

/-- Neither a blank nor a bracket starts a number. -/
theorem step_value_of_start? (completed : List Descriptor) (form : Form) (fields : Fields)
    (field : Field) {char : Char} {numeral : Json.Numeral}
    (started : Json.Numeral.start? char = some numeral) :
    step ⟨completed, .value form fields field⟩ char =
      .ok ⟨completed, .number form fields field numeral⟩ := by
  have unblank := Json.Numeral.isBlank_of_start? started
  have unclosed : char ≠ ']' := by
    rintro rfl
    cases started
  simp only [step, beforeValue, unblank, unclosed, openValue, started, and_false, if_false,
    Bool.false_eq_true]
  rfl

/-- **The characters of a number** lead to its numeral. -/
theorem run_numeral (completed : List Descriptor) (form : Form) (fields : Fields) (field : Field)
    {text : List Char} {numeral : Json.Numeral} (spells : Json.Numeral.Spells text numeral) :
    run ⟨completed, .value form fields field⟩ text =
      .ok ⟨completed, .number form fields field numeral⟩ := by
  induction spells with
  | start started => rw [run_singleton, step_value_of_start? _ _ _ _ started]
  | step _ stepped ih =>
      rw [run_append_of_run ih, run_singleton]
      simp only [step, inNumber, stepped]
      rfl

/-- The value of a member ends at the character behind its digits. -/
theorem step_number_keyed {value : Nat} (fits : value < field.range) {char : Char}
    (ends : Json.Numeral.endsWhole char = true) :
    step ⟨completed, .number .keyed fields field (.ofNat value)⟩ char =
      step ⟨completed, .afterMember (fields.set value field)⟩ char := by
  simp only [step, inNumber, Json.Numeral.step_of_complete (Json.Numeral.complete_ofNat value) ends,
    Json.Numeral.value_ofNat, liftDefect, bind, Except.bind, fields.store_of_lt fits]
  rfl

/-! ## Members -/

theorem run_keyText {text : List Char} (plain : ∀ char ∈ text, Json.isPlain char = true)
    (gathered : List Char) :
    run ⟨completed, .keyText fields ⟨.plain, gathered⟩⟩ text =
      .ok ⟨completed, .keyText fields ⟨.plain, text.reverse ++ gathered⟩⟩ := by
  induction text generalizing gathered with
  | nil => rfl
  | cons char rest ih =>
      obtain ⟨first, others⟩ := List.forall_mem_cons.mp plain
      have stepped : step ⟨completed, .keyText fields ⟨.plain, gathered⟩⟩ char =
          .ok ⟨completed, .keyText fields ⟨.plain, char :: gathered⟩⟩ := by
        simp only [step, Json.StringBody.step_plain true first]
        rfl
      rw [run_cons_of_step stepped, ih others, List.reverse_cons, List.append_assoc]
      rfl

/-- **A key of plain characters** is read up to the quote behind it. -/
theorem run_key (awaits : place.AwaitsKey fields) {name : String}
    (plain : ∀ char ∈ name.toList, Json.isPlain char = true) :
    run ⟨completed, place⟩ ('"' :: name.toList ++ ['"']) =
      closeKey ⟨completed, place⟩ fields name := by
  have opened : step ⟨completed, place⟩ '"' =
      .ok ⟨completed, .keyText fields ⟨.plain, []⟩⟩ := by
    cases awaits <;> rfl
  rw [List.cons_append, run_cons_of_step opened, run_append_of_run (run_keyText plain []),
    run_singleton]
  simp only [step, Json.StringBody.step_quote, List.append_nil, List.reverse_reverse,
    String.ofList_toList]
  rfl

/-- **A written member** stores its value, whatever ends it. -/
theorem run_writeField (awaits : place.AwaitsKey fields) (unread : fields.has field = false)
    {value : Nat} (fits : value < field.range) {char : Char}
    (ends : Json.Numeral.endsWhole char = true) :
    run ⟨completed, place⟩ (writeField field value ++ [char]) =
      step ⟨completed, .afterMember (fields.set value field)⟩ char := by
  have small : value < Nat.pow 2 64 := Nat.lt_of_lt_of_le fits field.range_le
  have key : run ⟨completed, place⟩ ('"' :: field.name.toList ++ ['"']) =
      .ok ⟨completed, .colon fields (some field)⟩ := by
    rw [run_key awaits field.isPlain_name, closeKey, field.ofName?_name]
    simp only [unread]
    rfl
  have colon : step ⟨completed, .colon fields (some field)⟩ ':' =
      .ok ⟨completed, .value .keyed fields field⟩ := rfl
  have parts : writeField field value ++ [char] =
      ('"' :: field.name.toList ++ ['"']) ++ (':' :: (Nat.toDigits 10 value ++ [char])) := by
    simp only [writeField, List.append_assoc, List.cons_append, List.nil_append]
  rw [parts, run_append_of_run key, run_cons_of_step colon,
    run_append_of_run (run_numeral _ _ _ _ (Json.Numeral.spells_toDigits small)), run_singleton,
    step_number_keyed fits ends]

/-! ## Descriptors -/

theorem step_afterMember_comma (completed : List Descriptor) (fields : Fields) :
    step ⟨completed, .afterMember fields⟩ ',' = .ok ⟨completed, .key fields⟩ := rfl

theorem step_afterMember_brace {descriptor : Descriptor}
    (made : fields.descriptor = .ok descriptor) :
    step ⟨completed, .afterMember fields⟩ '\x7d' =
      .ok ⟨descriptor :: completed, .afterElement⟩ := by
  have closed : step ⟨completed, .afterMember fields⟩ '\x7d' =
      complete ⟨completed, .afterMember fields⟩ fields := rfl
  rw [closed, complete, made]
  rfl

/-- **A written descriptor** is completed by its closing brace. -/
theorem run_writeDescriptor (awaits : place.AwaitsElement) (descriptor : Descriptor) :
    run ⟨completed, place⟩ (writeDescriptor descriptor) =
      .ok ⟨descriptor :: completed, .afterElement⟩ := by
  obtain ⟨opcode, prefixWidth, fixedSize⟩ := descriptor
  let first := Fields.unread.set opcode.toNat .opcode
  let second := first.set prefixWidth.toNat .prefixWidth
  let third := second.set fixedSize.toNat .fixedSize
  have opened : step ⟨completed, place⟩ '\x7b' = .ok ⟨completed, .firstKey⟩ := by
    cases awaits <;> rfl
  have opcodeRead : run ⟨completed, .firstKey⟩ (writeField .opcode opcode.toNat ++ [',']) =
      .ok ⟨completed, .key first⟩ := by
    rw [run_writeField .first rfl opcode.toNat_lt rfl, step_afterMember_comma]
  have widthRead : run ⟨completed, .key first⟩
      (writeField .prefixWidth prefixWidth.toNat ++ [',']) = .ok ⟨completed, .key second⟩ := by
    rw [run_writeField (.next first) rfl prefixWidth.toNat_lt rfl, step_afterMember_comma]
  have made : third.descriptor = .ok ⟨opcode, prefixWidth, fixedSize⟩ := by
    simp [third, second, first, Fields.set, Fields.unread, Fields.descriptor]
  have sizeRead : run ⟨completed, .key second⟩
      (writeField .fixedSize fixedSize.toNat ++ ['\x7d']) =
      .ok ⟨⟨opcode, prefixWidth, fixedSize⟩ :: completed, .afterElement⟩ := by
    rw [run_writeField (.next second) rfl fixedSize.toNat_lt rfl, step_afterMember_brace made]
  have parts : writeDescriptor ⟨opcode, prefixWidth, fixedSize⟩ =
      '\x7b' :: ((writeField .opcode opcode.toNat ++ [',']) ++
        ((writeField .prefixWidth prefixWidth.toNat ++ [',']) ++
          (writeField .fixedSize fixedSize.toNat ++ ['\x7d']))) := by
    simp only [writeDescriptor, commaSeparated, List.append_assoc, List.cons_append,
      List.nil_append]
  rw [parts, run_cons_of_step opened, run_append_of_run opcodeRead, run_append_of_run widthRead,
    sizeRead]

/-- **The elements of a written set**, up to the bracket that closes it. -/
theorem run_elements (awaits : place.AwaitsElement) {descriptors : List Descriptor}
    (nonempty : descriptors ≠ []) :
    run ⟨completed, place⟩ (commaSeparated (descriptors.map writeDescriptor) ++ [']']) =
      .ok ⟨descriptors.reverse ++ completed, .afterSet⟩ := by
  induction descriptors generalizing completed place with
  | nil => exact absurd rfl nonempty
  | cons descriptor rest ih =>
      have read : run ⟨completed, place⟩ (writeDescriptor descriptor) =
          .ok ⟨descriptor :: completed, .afterElement⟩ := run_writeDescriptor awaits descriptor
      cases rest with
      | nil =>
          rw [List.map_singleton, commaSeparated, run_append_of_run read, run_singleton]
          rfl
      | cons second rest =>
          have separated : step ⟨descriptor :: completed, .afterElement⟩ ',' =
              .ok ⟨descriptor :: completed, .element⟩ := rfl
          have reversed : (descriptor :: second :: rest).reverse =
              (second :: rest).reverse ++ [descriptor] := List.reverse_cons
          have parts : commaSeparated ((descriptor :: second :: rest).map writeDescriptor) =
              writeDescriptor descriptor ++
                ',' :: commaSeparated ((second :: rest).map writeDescriptor) := rfl
          rw [parts, List.append_assoc, run_append_of_run read, List.cons_append,
            run_cons_of_step separated, ih .next (List.cons_ne_nil _ _), reversed,
            List.append_assoc, List.singleton_append]

end Reader

/-! ## Sets -/

/-- **A written set is read back.** -/
theorem read_write (descriptors : List Descriptor) :
    read (write descriptors) = .ok descriptors := by
  have opened : Reader.start.step '[' = .ok ⟨[], .firstElement⟩ := rfl
  have led : Reader.start.run (write descriptors) = .ok ⟨descriptors.reverse, .afterSet⟩ := by
    rw [write, List.cons_append, Reader.run_cons_of_step opened]
    cases descriptors with
    | nil => rfl
    | cons descriptor rest =>
        rw [Reader.run_elements .first (List.cons_ne_nil _ _), List.append_nil]
  rw [read, led]
  exact congrArg Except.ok (List.reverse_reverse descriptors)

/-- **Writing loses nothing.** Each descriptor set is read back as it was written, so two
sets are not written alike; and the table loaded from the text of a set is the one built
from the set, or fails as the building does, with the same reports in the same order. -/
theorem write_loses_nothing :
    (∀ descriptors, read (write descriptors) = .ok descriptors) ∧
    Function.Injective write ∧
    ∀ descriptors, Table.load (write descriptors) = Table.build descriptors := by
  refine ⟨read_write, ?_, ?_⟩
  · intro first second same
    have read : Except.ok first = Except.ok second :=
      (read_write first).symm.trans ((congrArg read same).trans (read_write second))
    exact Except.ok.inj read
  · intro descriptors
    exact Table.load_of_read_eq_ok (read_write descriptors)

end Bytecode.DescriptorSet
