import Bytecode.Proofs.DescriptorSet.RoundTrip
import Bytecode.Proofs.Json.Scalar
import Mathlib.Data.List.Forall2

/-! # Documents

A document is a list of objects that are meant as descriptors. Their members are fields with
whole numbers of any size and members of other names, in any order; fields may be left out or
be there twice. Texts of one document differ in the blanks between their tokens
(`Document.SpelledBy`).

An element is faulty (`Element.Faulty`) or lists the numbers of one descriptor
(`Element.Lists`); which of the two it is comes out as its members are gathered one by one
(`Element.descriptor?`).
-/

namespace Bytecode.DescriptorSet

/-! ## Syntax -/

/-- A member of an object. -/
inductive Member where
  /-- A field with a whole number, be it one of its values or not. -/
  | known (field : Field) (value : Int)
  /-- A member of another name, with its value as it is written. -/
  | foreign (name : String) (value : List Char)
    (plain : ∀ char ∈ name.toList, Json.isPlain char = true)
    (unknown : ∀ field : Field, field.name ≠ name) (scalar : Json.IsScalar value)

/-- An object that stands for a descriptor. -/
abbrev Element := List Member

abbrev Document := List Element

/-- A key in its quotes. -/
def keyToken (name : String) : List Char := '"' :: name.toList ++ ['"']

def Member.tokens : Member → List (List Char)
  | .known field value => [keyToken field.name, [':'], Json.decimal value]
  | .foreign name value .. => [keyToken name, [':'], value]

def Element.tokens (element : Element) : List (List Char) :=
  ['\x7b'] :: ([[',']].intercalate (element.map Member.tokens) ++ [['\x7d']])

def Document.tokens (document : Document) : List (List Char) :=
  ['['] :: ([[',']].intercalate (document.map Element.tokens) ++ [[']']])

/-- The tokens in order, each with any blanks in front of it. -/
inductive Spread : List (List Char) → List Char → Prop where
  | nil : Spread [] []
  | cons {token : List Char} {tokens : List (List Char)} {blanks text : List Char} :
      (∀ char ∈ blanks, Json.isBlank char = true) → Spread tokens text →
      Spread (token :: tokens) (blanks ++ token ++ text)

/-- **The texts of a document.** Blanks may stand in front of each token and at the end. -/
def Document.SpelledBy (document : Document) (text : List Char) : Prop :=
  ∃ front blanks, Spread document.tokens front ∧
    (∀ char ∈ blanks, Json.isBlank char = true) ∧ text = front ++ blanks

theorem Spread.exists_append {front back : List (List Char)} {text : List Char}
    (spread : Spread (front ++ back) text) :
    ∃ first second, Spread front first ∧ Spread back second ∧ text = first ++ second := by
  induction front generalizing text with
  | nil => exact ⟨[], text, .nil, spread, rfl⟩
  | cons token tokens ih =>
      cases spread with
      | cons blank rest =>
          obtain ⟨first, second, spreadFirst, spreadSecond, rfl⟩ := ih rest
          exact ⟨_, second, .cons blank spreadFirst, spreadSecond,
            (List.append_assoc _ first second).symm⟩

theorem spread_flatMap {blanks : List Char} (blank : ∀ char ∈ blanks, Json.isBlank char = true)
    (tokens : List (List Char)) : Spread tokens (tokens.flatMap (blanks ++ ·)) := by
  induction tokens with
  | nil => exact .nil
  | cons token others ih => exact .cons blank ih

/-- A text of a document with the same blanks at all places. -/
def Document.spaced (document : Document) (blanks : List Char) : List Char :=
  document.tokens.flatMap (blanks ++ ·) ++ blanks

/-- **Each document has texts.** -/
theorem Document.spelledBy_spaced (document : Document) {blanks : List Char}
    (blank : ∀ char ∈ blanks, Json.isBlank char = true) :
    document.SpelledBy (document.spaced blanks) :=
  ⟨_, blanks, spread_flatMap blank document.tokens, blank, rfl⟩

/-! ## Meaning -/

/-- Whether a whole number is one of the values of the field. -/
def Field.Fits (field : Field) (value : Int) : Prop := 0 ≤ value ∧ value < field.range

instance (field : Field) (value : Int) : Decidable (field.Fits value) :=
  inferInstanceAs (Decidable (0 ≤ value ∧ value < field.range))

/-- What a member states for a field. -/
def Member.value? (member : Member) (field : Field) : Option Int :=
  match member with
  | .known named value => if named = field then some value else none
  | .foreign .. => none

/-- Everything that an element states for a field, in order. -/
def Element.values (element : Element) (field : Field) : List Int :=
  element.filterMap (·.value? field)

/-- **An element that stands for no descriptor.** -/
inductive Element.Faulty (element : Element) : Prop where
  | opcodeMissing : element.values .opcode = [] → Faulty element
  | repeated (field : Field) : 1 < (element.values field).length → Faulty element
  | outOfRange (field : Field) (value : Int) :
      value ∈ element.values field → ¬ field.Fits value → Faulty element

/-- The number that a descriptor has in the field. -/
def Field.number (field : Field) (descriptor : Descriptor) : Nat :=
  match field with
  | .opcode => descriptor.opcode.toNat
  | .prefixWidth => descriptor.prefixWidth.toNat
  | .fixedSize => descriptor.fixedSize.toNat

/-- **The element of a descriptor.** It states the number of each field once, whereas a number
other than the opcode may be left out if it is zero. -/
def Element.Lists (element : Element) (descriptor : Descriptor) : Prop :=
  ∀ field : Field, element.values field = [(field.number descriptor : Int)] ∨
    field ≠ .opcode ∧ element.values field = [] ∧ field.number descriptor = 0

/-! ## Gathering members -/

namespace Fields

/-- The fields with one more member, unless it repeats one or its number does not fit. -/
def add? (fields : Fields) : Member → Option Fields
  | .known field value =>
      if fields.has field then none
      else if field.Fits value then some (fields.set value.toNat field)
      else none
  | .foreign .. => some fields

/-- The number of a field, if it was read. -/
def values (fields : Fields) : Field → List Int
  | .opcode => (fields.opcode.map fun opcode => (opcode.toNat : Int)).toList
  | .prefixWidth => (fields.prefixWidth.map fun width => (width.toNat : Int)).toList
  | .fixedSize => (fields.fixedSize.map fun size => (size.toNat : Int)).toList

@[simp] theorem values_unread (field : Field) : unread.values field = [] := by cases field <;> rfl

theorem values_eq_nil_iff (fields : Fields) (field : Field) :
    fields.values field = [] ↔ fields.has field = false := by
  cases field <;> simp [values, has]

theorem length_values_le (fields : Fields) (field : Field) :
    (fields.values field).length ≤ 1 := by
  cases field <;> exact Option.length_toList_le

theorem values_set_of_ne (fields : Fields) {field other : Field} (apart : field ≠ other)
    (value : Nat) : (fields.set value field).values other = fields.values other := by
  cases field <;> cases other <;> first | rfl | exact absurd rfl apart

theorem values_set_self (fields : Fields) {field : Field} {value : Nat}
    (small : value < field.range) : (fields.set value field).values field = [(value : Int)] := by
  cases field with
  | opcode => simp [set, values, Opcode.toNat_ofNat small]
  | prefixWidth =>
      have bounded : value < 256 := small
      simp [set, values, Nat.mod_eq_of_lt bounded]
  | fixedSize =>
      have bounded : value < 4294967296 := small
      simp [set, values, Nat.mod_eq_of_lt bounded]

/-- A member that was added states at most one number, which fits. -/
theorem values_of_add?_eq_some {fields later : Fields} {member : Member}
    (added : fields.add? member = some later) (field : Field) :
    later.values field = fields.values field ++ (member.value? field).toList ∧
      ∀ value ∈ member.value? field, field.Fits value := by
  cases member with
  | foreign =>
      cases added
      simp [Member.value?]
  | known named value =>
      simp only [add?] at added
      split at added
      · cases added
      · next unread =>
          split at added
          · next fits =>
              cases added
              by_cases same : named = field
              · subst same
                have before : fields.values named = [] :=
                  (values_eq_nil_iff fields named).mpr (Bool.eq_false_iff.mpr unread)
                obtain ⟨natural, bounded⟩ := fits
                have small : value.toNat < named.range := by omega
                rw [values_set_self fields small, Int.toNat_of_nonneg natural, before]
                simp [Member.value?, Field.Fits, natural, bounded]
              · simp [values_set_of_ne fields same, Member.value?, same]
          · cases added

/-- What can be wrong with a member. -/
theorem exists_of_add?_eq_none {fields : Fields} {member : Member}
    (refused : fields.add? member = none) :
    ∃ field value, member.value? field = some value ∧
      (fields.values field ≠ [] ∨ ¬ field.Fits value) := by
  cases member with
  | foreign => cases refused
  | known named value =>
      refine ⟨named, value, if_pos rfl, ?_⟩
      simp only [add?] at refused
      split at refused
      · next read =>
          rw [Ne, values_eq_nil_iff, read]
          exact .inl Bool.true_eq_false.mp
      · split at refused
        · cases refused
        · next unfit => exact .inr unfit

end Fields

namespace Element

/-- The descriptor of an element, gathered member by member. -/
def descriptor? (element : Element) : Option Descriptor :=
  (element.foldlM Fields.add? .unread).bind (·.descriptor.toOption)

theorem values_cons (member : Member) (rest : Element) (field : Field) :
    values (member :: rest) field = (member.value? field).toList ++ values rest field := by
  simp only [values, List.filterMap_cons]
  cases member.value? field <;> rfl

/-- Members that were all added state what the fields are found to hold. -/
theorem values_of_foldlM_eq_some {fields later : Fields} {element : Element}
    (added : element.foldlM Fields.add? fields = some later) (field : Field) :
    later.values field = fields.values field ++ element.values field ∧
      ∀ value ∈ element.values field, field.Fits value := by
  induction element generalizing fields with
  | nil =>
      cases added
      simp [values]
  | cons member rest ih =>
      rw [List.foldlM_cons] at added
      obtain ⟨middle, first, others⟩ := Option.bind_eq_some_iff.mp added
      obtain ⟨held, fit⟩ := Fields.values_of_add?_eq_some first field
      obtain ⟨heldLater, fitLater⟩ := ih others
      rw [heldLater, held, values_cons, List.append_assoc]
      refine ⟨rfl, fun value stated => ?_⟩
      rcases List.mem_append.mp stated with own | later
      · exact fit value (Option.mem_toList.mp own)
      · exact fitLater value later

/-- Members that were not all added state two numbers for a field, or one that does not fit. -/
theorem exists_of_foldlM_eq_none {fields : Fields} {element : Element}
    (refused : element.foldlM Fields.add? fields = none) :
    ∃ field, 1 < (fields.values field ++ element.values field).length ∨
      ∃ value ∈ element.values field, ¬ field.Fits value := by
  induction element generalizing fields with
  | nil => cases refused
  | cons member rest ih =>
      rw [List.foldlM_cons] at refused
      cases added : fields.add? member with
      | none =>
          obtain ⟨field, value, stated, problem⟩ := Fields.exists_of_add?_eq_none added
          refine ⟨field, ?_⟩
          rw [values_cons, stated]
          rcases problem with read | unfit
          · have one := List.length_pos_iff.mpr read
            left
            simp only [Option.toList_some, List.length_append, List.length_singleton]
            omega
          · exact .inr ⟨value, List.mem_cons_self, unfit⟩
      | some middle =>
          rw [added] at refused
          obtain ⟨field, problem⟩ := ih refused
          refine ⟨field, ?_⟩
          rw [values_cons, ← List.append_assoc, ← (Fields.values_of_add?_eq_some added field).1]
          rcases problem with twice | ⟨value, stated, unfit⟩
          · exact .inl twice
          · exact .inr ⟨value, List.mem_append_right _ stated, unfit⟩

/-- Fields that hold all that an element states make up its descriptor. -/
theorem lists_of_descriptor {fields : Fields} {element : Element} {descriptor : Descriptor}
    (held : ∀ field, fields.values field = element.values field)
    (made : fields.descriptor = .ok descriptor) : element.Lists descriptor := by
  obtain ⟨opcode, prefixWidth, fixedSize⟩ := fields
  cases opcode with
  | none => cases made
  | some opcode =>
      cases made
      intro field
      rw [← held field]
      cases field with
      | opcode => exact .inl rfl
      | prefixWidth =>
          cases prefixWidth with
          | none => exact .inr ⟨nofun, rfl, rfl⟩
          | some width => exact .inl rfl
      | fixedSize =>
          cases fixedSize with
          | none => exact .inr ⟨nofun, rfl, rfl⟩
          | some size => exact .inl rfl

/-- **A gathered descriptor is the one that the element lists.** -/
theorem lists_of_descriptor?_eq_some {element : Element} {descriptor : Descriptor}
    (gathered : element.descriptor? = some descriptor) :
    element.Lists descriptor ∧ ¬ element.Faulty := by
  obtain ⟨fields, added, made⟩ := Option.bind_eq_some_iff.mp gathered
  have holds := values_of_foldlM_eq_some added
  have held : ∀ field, fields.values field = element.values field := fun field => by
    rw [(holds field).1, Fields.values_unread, List.nil_append]
  have ok : fields.descriptor = .ok descriptor := by
    cases found : fields.descriptor with
    | error problem =>
        rw [found] at made
        cases made
    | ok other =>
        rw [found] at made
        cases made
        rfl
  have lists := lists_of_descriptor held ok
  refine ⟨lists, ?_⟩
  rintro (missing | ⟨field, twice⟩ | ⟨field, value, stated, unfit⟩)
  · rcases lists .opcode with once | ⟨other, _⟩
    · rw [missing] at once
      cases once
    · exact other rfl
  · rw [← held field] at twice
    exact absurd twice (Nat.not_lt.mpr (fields.length_values_le field))
  · exact unfit ((holds field).2 value stated)

/-- **An element without a descriptor is faulty.** -/
theorem faulty_of_descriptor?_eq_none {element : Element}
    (refused : element.descriptor? = none) : element.Faulty := by
  cases added : element.foldlM Fields.add? .unread with
  | none =>
      obtain ⟨field, twice | ⟨value, stated, unfit⟩⟩ := exists_of_foldlM_eq_none added
      · rw [Fields.values_unread, List.nil_append] at twice
        exact .repeated field twice
      · exact .outOfRange field value stated unfit
  | some fields =>
      have held := (values_of_foldlM_eq_some added .opcode).1
      rw [Fields.values_unread, List.nil_append] at held
      have unread : fields.opcode = none := by
        cases opcode : fields.opcode with
        | none => rfl
        | some opcode =>
            rw [descriptor?, added] at refused
            simp [Fields.descriptor, opcode] at refused
            cases refused
      refine .opcodeMissing ?_
      rw [← held, Fields.values, unread]
      rfl

end Element

namespace Document

/-- The descriptors of a document, gathered element by element. -/
def descriptors? (document : Document) : Option (List Descriptor) :=
  document.mapM Element.descriptor?

@[simp] theorem descriptors?_nil : descriptors? [] = some [] := rfl

theorem descriptors?_cons (element : Element) (rest : Document) :
    descriptors? (element :: rest) =
      element.descriptor?.bind fun descriptor =>
        (descriptors? rest).map fun descriptors => descriptor :: descriptors := by
  simp only [descriptors?, List.mapM_cons, Option.map_eq_bind]
  rfl

/-- A reader that puts each descriptor in front of those before it ends with all of them. -/
theorem foldlM_eq (document : Document) (completed : List Descriptor) :
    document.foldlM (fun completed element => element.descriptor?.map (· :: completed)) completed =
      document.descriptors?.map fun descriptors => descriptors.reverse ++ completed := by
  induction document generalizing completed with
  | nil => rfl
  | cons element rest ih =>
      rw [List.foldlM_cons, descriptors?_cons]
      cases element.descriptor? with
      | none => rfl
      | some descriptor =>
          refine (ih (descriptor :: completed)).trans ?_
          cases descriptors? rest with
          | none => rfl
          | some descriptors =>
              simp only [Option.map_some, Option.bind_some, List.reverse_cons, List.append_assoc,
                List.singleton_append]

theorem lists_of_descriptors?_eq_some {document : Document} {descriptors : List Descriptor}
    (gathered : document.descriptors? = some descriptors) :
    List.Forall₂ Element.Lists document descriptors ∧ ∀ element ∈ document, ¬ element.Faulty := by
  induction document generalizing descriptors with
  | nil =>
      cases gathered
      exact ⟨.nil, nofun⟩
  | cons element rest ih =>
      rw [descriptors?_cons] at gathered
      obtain ⟨descriptor, first, others⟩ := Option.bind_eq_some_iff.mp gathered
      obtain ⟨later, found, rfl⟩ := Option.map_eq_some_iff.mp others
      obtain ⟨lists, faultless⟩ := Element.lists_of_descriptor?_eq_some first
      obtain ⟨listsLater, faultlessLater⟩ := ih found
      exact ⟨.cons lists listsLater, List.forall_mem_cons.mpr ⟨faultless, faultlessLater⟩⟩

theorem exists_faulty_of_descriptors?_eq_none {document : Document}
    (refused : document.descriptors? = none) : ∃ element ∈ document, element.Faulty := by
  induction document with
  | nil => cases refused
  | cons element rest ih =>
      rw [descriptors?_cons] at refused
      cases gathered : element.descriptor? with
      | none => exact ⟨element, List.mem_cons_self, Element.faulty_of_descriptor?_eq_none gathered⟩
      | some descriptor =>
          rw [gathered] at refused
          obtain ⟨faulty, member, fault⟩ := ih (Option.map_eq_none_iff.mp refused)
          exact ⟨faulty, List.mem_cons_of_mem element member, fault⟩

end Document

end Bytecode.DescriptorSet
