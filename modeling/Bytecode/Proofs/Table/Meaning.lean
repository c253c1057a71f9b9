import Bytecode.Table.Build

/-! # What a descriptor list means

The first malformed descriptor of a list refuses it as a whole. In a list without
one, the last descriptor of an opcode settles what the table says about the opcode
(`Draft.exists_mention?_enterAll`); the ones before it leave no trace.
-/

namespace Bytecode

/-- **What a descriptor says.** A width of zero stands for an operand of the fixed size,
the width of a length field for a stored length; any other width says nothing. -/
inductive Descriptor.States (descriptor : Descriptor) : Encoding → Prop where
  | fixed : descriptor.prefixWidth = 0 → descriptor.States (.fixed descriptor.fixedSize)
  | prefixed {width : LengthWidth} :
      descriptor.prefixWidth.toNat = width.bytes → descriptor.States (.prefixed width)

/-- Whether the width is none of those that a descriptor may have. -/
def Descriptor.isMalformed (descriptor : Descriptor) : Bool :=
  descriptor.prefixWidth ∉ [0, 1, 2, 4]

/-- The last descriptor of a list for an opcode. -/
def Opcode.descriptor? (opcode : Opcode) (descriptors : List Descriptor) : Option Descriptor :=
  (descriptors.filter (·.opcode = opcode)).getLast?

/-- What a list settles for an opcode: what its last descriptor for the opcode says, and
no operand if there is none. -/
def Encoding.SettledBy (encoding : Encoding) (descriptors : List Descriptor) (opcode : Opcode) :
    Prop :=
  match opcode.descriptor? descriptors with
  | none => encoding = .fixed 0
  | some descriptor => descriptor.States encoding

theorem LengthWidth.ofBytes?_eq_some_iff {count : UInt8} {width : LengthWidth} :
    ofBytes? count = some width ↔ count.toNat = width.bytes := by
  constructor
  · intro found
    unfold ofBytes? at found
    split at found
    · next one => cases found; rw [one]; rfl
    · split at found
      · next two => cases found; rw [two]; rfl
      · split at found
        · next four => cases found; rw [four]; rfl
        · cases found
  · intro stored
    obtain rfl : count = UInt8.ofNat width.bytes := by rw [← stored, UInt8.ofNat_toNat]
    exact ofBytes?_bytes width

theorem LengthWidth.ne_zero_of_toNat_eq {count : UInt8} {width : LengthWidth}
    (stored : count.toNat = width.bytes) : count ≠ 0 := by
  rintro rfl
  cases width <;> cases stored

namespace Descriptor

theorem encoding?_eq_some_iff {descriptor : Descriptor} {encoding : Encoding} :
    descriptor.encoding? = some encoding ↔ descriptor.States encoding := by
  unfold encoding?
  constructor
  · intro stated
    split at stated
    · next zero =>
        cases stated
        exact .fixed zero
    · obtain ⟨width, found, rfl⟩ := Option.map_eq_some_iff.mp stated
      exact .prefixed (LengthWidth.ofBytes?_eq_some_iff.mp found)
  · intro states
    cases states with
    | fixed zero => rw [if_pos zero]
    | @prefixed width stored =>
        rw [if_neg (LengthWidth.ne_zero_of_toNat_eq stored),
          LengthWidth.ofBytes?_eq_some_iff.mpr stored, Option.map_some]

theorem encoding?_eq_none_iff_isMalformed {descriptor : Descriptor} :
    descriptor.encoding? = none ↔ descriptor.isMalformed = true := by
  rw [encoding?_eq_none_iff, isMalformed, decide_eq_true_eq]

theorem isSome_encoding?_iff {descriptor : Descriptor} :
    descriptor.encoding?.isSome ↔ descriptor.isMalformed = false := by
  rw [← Option.ne_none_iff_isSome, ne_eq, encoding?_eq_none_iff_isMalformed, Bool.not_eq_true]

end Descriptor

namespace Opcode

@[simp] theorem descriptor?_nil (opcode : Opcode) : opcode.descriptor? [] = none := rfl

theorem descriptor?_cons (opcode : Opcode) (descriptor : Descriptor) (rest : List Descriptor) :
    opcode.descriptor? (descriptor :: rest) =
      (opcode.descriptor? rest).or
        (if descriptor.opcode = opcode then some descriptor else none) := by
  by_cases same : descriptor.opcode = opcode
  · simp only [descriptor?, List.filter_cons, same, decide_true, ↓reduceIte, List.getLast?_cons]
    cases (rest.filter (·.opcode = opcode)).getLast? <;> rfl
  · simp only [descriptor?, List.filter_cons, same, decide_false, Bool.false_eq_true, ↓reduceIte,
      Option.or_none]

theorem mem_of_descriptor?_eq_some {opcode : Opcode} {descriptors : List Descriptor}
    {descriptor : Descriptor} (last : opcode.descriptor? descriptors = some descriptor) :
    descriptor ∈ descriptors :=
  (List.mem_filter.mp (List.mem_of_getLast? last)).1

theorem descriptor?_eq_none_iff {opcode : Opcode} {descriptors : List Descriptor} :
    opcode.descriptor? descriptors = none ↔
      ∀ descriptor ∈ descriptors, descriptor.opcode ≠ opcode := by
  rw [descriptor?, List.getLast?_eq_none_iff, List.filter_eq_nil_iff]
  simp only [decide_eq_true_eq, ne_eq]

theorem opcode_of_descriptor?_eq_some {opcode : Opcode} {descriptors : List Descriptor}
    {descriptor : Descriptor} (last : opcode.descriptor? descriptors = some descriptor) :
    descriptor.opcode = opcode :=
  of_decide_eq_true (List.mem_filter.mp (List.mem_of_getLast? last)).2

end Opcode

namespace Encoding

theorem settledBy_iff {encoding : Encoding} {descriptors : List Descriptor} {opcode : Opcode} :
    encoding.SettledBy descriptors opcode ↔
      (opcode.descriptor? descriptors).elim (some empty) Descriptor.encoding? = some encoding := by
  unfold SettledBy
  cases opcode.descriptor? descriptors with
  | none =>
      rw [Option.elim_none, Option.some.injEq]
      exact eq_comm
  | some descriptor => exact Descriptor.encoding?_eq_some_iff.symm

/-- A list settles one encoding for an opcode. -/
theorem SettledBy.eq {first second : Encoding} {descriptors : List Descriptor} {opcode : Opcode}
    (firstSettled : first.SettledBy descriptors opcode)
    (secondSettled : second.SettledBy descriptors opcode) : first = second :=
  Option.some.inj ((settledBy_iff.mp firstSettled).symm.trans (settledBy_iff.mp secondSettled))

end Encoding

namespace Draft

/-- The first malformed descriptor ends everything, whatever was entered before it and
whatever comes after it. -/
theorem value_enterAll_eq_error (draft : Draft) {descriptors : List Descriptor}
    {malformed : Descriptor}
    (first : descriptors.find? Descriptor.isMalformed = some malformed) :
    (draft.enterAll descriptors).value =
      .error (.invalidMetadata malformed.opcode malformed.prefixWidth) := by
  induction descriptors generalizing draft with
  | nil => cases first
  | cons descriptor rest ih =>
      cases stated : descriptor.encoding? with
      | none =>
          rw [List.find?_cons_of_pos (Descriptor.encoding?_eq_none_iff_isMalformed.mp stated)]
            at first
          cases first
          simp only [enterAll, stated, Logged.silent]
      | some encoding =>
          have admitted : descriptor.isMalformed = false :=
            Descriptor.isSome_encoding?_iff.mp (by rw [stated, Option.isSome_some])
          rw [List.find?_cons_of_neg (by rw [admitted]; exact Bool.false_ne_true)] at first
          simp only [enterAll, stated]
          exact ih _ first

/-- Descriptors that are all well formed are all entered. Of every opcode the draft then
knows what the last of them said, or what was said before. -/
theorem exists_mention?_enterAll (draft : Draft) {descriptors : List Descriptor}
    (wellFormed : ∀ descriptor ∈ descriptors, descriptor.encoding?.isSome) :
    ∃ later, (draft.enterAll descriptors).value = .ok later ∧
      ∀ opcode : Opcode, later.mention? opcode =
        ((opcode.descriptor? descriptors).bind Descriptor.encoding?).or
          (draft.mention? opcode) := by
  induction descriptors generalizing draft with
  | nil => exact ⟨draft, rfl, fun _ => rfl⟩
  | cons descriptor rest ih =>
      obtain ⟨encoding, stated⟩ :=
        Option.isSome_iff_exists.mp (wellFormed descriptor List.mem_cons_self)
      have restFormed : ∀ other ∈ rest, other.encoding?.isSome := fun other member =>
        wellFormed other (List.mem_cons_of_mem _ member)
      obtain ⟨later, entered, mentions⟩ := ih (draft.enter descriptor.opcode encoding) restFormed
      refine ⟨later, by simpa only [enterAll, stated] using entered, ?_⟩
      intro opcode
      rw [mentions, mention?_enter, Opcode.descriptor?_cons]
      cases last : opcode.descriptor? rest with
      -- A later descriptor of the opcode says something, so this one does not matter.
      | some other =>
          obtain ⟨said, stated⟩ := Option.isSome_iff_exists.mp
            (restFormed other (Opcode.mem_of_descriptor?_eq_some last))
          simp only [Option.some_or, Option.bind_some, stated]
      | none =>
          by_cases same : descriptor.opcode = opcode
          · simp only [same, ↓reduceIte, Option.none_or, Option.bind_some, Option.bind_none, stated,
              Option.some_or]
          · simp only [same, Ne.symm same, ↓reduceIte, Option.none_or, Option.bind_none]

end Draft

namespace Table

theorem wellFormed_of_find?_eq_none {descriptors : List Descriptor}
    (clean : descriptors.find? Descriptor.isMalformed = none) :
    ∀ descriptor ∈ descriptors, descriptor.encoding?.isSome := by
  intro descriptor member
  rw [Descriptor.isSome_encoding?_iff, ← Bool.not_eq_true]
  exact List.find?_eq_none.mp clean descriptor member

/-- A list of well-formed descriptors builds a table, and the table says of every opcode
what the list settles. -/
theorem exists_settled_build {descriptors : List Descriptor}
    (wellFormed : ∀ descriptor ∈ descriptors, descriptor.encoding?.isSome) :
    ∃ table, (build descriptors).value = .ok table ∧
      ∀ opcode, (table.lookup opcode).SettledBy descriptors opcode := by
  obtain ⟨draft, entered, mentions⟩ := Draft.blank.exists_mention?_enterAll wellFormed
  refine ⟨draft.table, by simp only [build, entered], ?_⟩
  intro opcode
  rw [Draft.lookup_table, mentions, Draft.mention?_blank, Option.or_none, Encoding.settledBy_iff]
  cases last : opcode.descriptor? descriptors with
  | none => rfl
  | some descriptor =>
      obtain ⟨encoding, stated⟩ := Option.isSome_iff_exists.mp
        (wellFormed descriptor (Opcode.mem_of_descriptor?_eq_some last))
      simp only [Option.elim_some, Option.bind_some, stated, Option.getD_some]

/-- The fault of a list that builds no table is that of its first malformed descriptor. -/
theorem value_build_eq_error_iff {descriptors : List Descriptor} {fault : Fault} :
    (build descriptors).value = .error fault ↔
      ∃ malformed, descriptors.find? Descriptor.isMalformed = some malformed ∧
        fault = .invalidMetadata malformed.opcode malformed.prefixWidth := by
  cases first : descriptors.find? Descriptor.isMalformed with
  | some malformed =>
      simp [build, Draft.blank.value_enterAll_eq_error first, eq_comm]
  | none =>
      obtain ⟨table, built, -⟩ := exists_settled_build (wellFormed_of_find?_eq_none first)
      simp [built]

/-- A table that was built says of every opcode what the list settles. -/
theorem settledBy_of_build {descriptors : List Descriptor} {table : Table}
    (built : (build descriptors).value = .ok table) (opcode : Opcode) :
    (table.lookup opcode).SettledBy descriptors opcode := by
  cases first : descriptors.find? Descriptor.isMalformed with
  | some malformed =>
      have refused := value_build_eq_error_iff.mpr ⟨malformed, first, rfl⟩
      rw [built] at refused
      cases refused
  | none =>
      obtain ⟨other, otherBuilt, settled⟩ :=
        exists_settled_build (wellFormed_of_find?_eq_none first)
      obtain rfl : table = other := Except.ok.inj (built.symm.trans otherBuilt)
      exact settled opcode

/-- A set that has to be well formed is refused where any other would be, and else builds
the same table. -/
theorem value_demand (descriptors : List Descriptor) :
    (demand descriptors).value = (build descriptors).value.mapError Abort.malformedSet := by
  simp only [demand]
  cases (build descriptors).value <;> rfl

/-- **The first fault wins, then the last word.** A list with a malformed descriptor is
refused with the fault of the first one. Any other list builds a table, which says of
every opcode what the last descriptor for it says, and that it has no operand if there
is none. Lists that settle the same build the same table. Where a list has to be well
formed, everything ends exactly if it is refused. -/
theorem build_first_fault_last_word (descriptors : List Descriptor) :
    (match descriptors.find? Descriptor.isMalformed with
      | some malformed => (build descriptors).value =
          .error (.invalidMetadata malformed.opcode malformed.prefixWidth)
      | none => ∃ table, (build descriptors).value = .ok table ∧
          ∀ opcode, (table.lookup opcode).SettledBy descriptors opcode) ∧
    (∀ others : List Descriptor,
      (∀ descriptor ∈ descriptors ++ others, descriptor.isMalformed = false) →
      (∀ opcode encoding, Encoding.SettledBy encoding descriptors opcode ↔
        encoding.SettledBy others opcode) →
      ∃ table, (build descriptors).value = .ok table ∧ (build others).value = .ok table) ∧
    ∀ cause, (demand descriptors).value = .error cause ↔
      ∃ fault, (build descriptors).value = .error fault ∧ cause = .malformedSet fault := by
  refine ⟨?_, ?_, ?_⟩
  · cases first : descriptors.find? Descriptor.isMalformed with
    | some malformed => exact value_build_eq_error_iff.mpr ⟨malformed, first, rfl⟩
    | none => exact exists_settled_build (wellFormed_of_find?_eq_none first)
  · intro others admitted same
    have stated : ∀ descriptor ∈ descriptors ++ others, descriptor.encoding?.isSome :=
      fun descriptor member => Descriptor.isSome_encoding?_iff.mpr (admitted descriptor member)
    obtain ⟨table, built, settled⟩ := exists_settled_build fun descriptor member =>
      stated descriptor (List.mem_append_left others member)
    obtain ⟨other, otherBuilt, otherSettled⟩ := exists_settled_build fun descriptor member =>
      stated descriptor (List.mem_append_right descriptors member)
    obtain rfl : table = other := by
      apply Table.ext
      intro opcode
      exact ((same opcode _).mp (settled opcode)).eq (otherSettled opcode)
    exact ⟨table, built, otherBuilt⟩
  · intro cause
    rw [value_demand]
    cases (build descriptors).value with
    | ok table => exact ⟨nofun, nofun⟩
    | error fault =>
        constructor
        · intro aborted
          cases aborted
          exact ⟨fault, rfl, rfl⟩
        · rintro ⟨_, ⟨⟩, rfl⟩
          rfl

/-- A size, then a stored length for the same opcode, and a descriptor that says what
is said anyhow: all the same as the stored length alone. -/
theorem build_first_fault_last_word_replaced :
    let descriptors : List Descriptor := [⟨⟨0x0c⟩, 0, 2⟩, ⟨⟨0x21⟩, 0, 0⟩, ⟨⟨0x0c⟩, 4, 9⟩]
    let others : List Descriptor := [⟨⟨0x0c⟩, 4, 0⟩]
    (∀ descriptor ∈ descriptors ++ others, descriptor.isMalformed = false) ∧
    (∀ opcode encoding, Encoding.SettledBy encoding descriptors opcode ↔
      encoding.SettledBy others opcode) ∧
    ∃ table, (build descriptors).value = .ok table ∧ (build others).value = .ok table := by
  intro descriptors others
  have admitted : ∀ descriptor ∈ descriptors ++ others, descriptor.isMalformed = false := by
    decide
  have same : ∀ opcode encoding, Encoding.SettledBy encoding descriptors opcode ↔
      encoding.SettledBy others opcode := by
    intro opcode encoding
    rw [Encoding.settledBy_iff, Encoding.settledBy_iff]
    by_cases push : opcode = ⟨0x0c⟩
    · subst push
      rfl
    · by_cases plain : opcode = ⟨0x21⟩
      · subst plain
        rfl
      · simp [descriptors, others, Opcode.descriptor?_cons, Ne.symm push, Ne.symm plain]
  exact ⟨admitted, same, (build_first_fault_last_word descriptors).2.1 others admitted same⟩

end Table

end Bytecode
