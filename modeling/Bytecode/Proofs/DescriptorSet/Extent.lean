import Bytecode.Proofs.DescriptorSet.Spellings

/-! # The extent of a written set

A text is read as a set only if the set has come to its end, and behind that end only blanks
may follow (`read_append_of_not_blank`). So no beginning of the text of a set that leaves out
more than blanks is a set (`exists_problem_of_cut`). A written set ends with its last bracket:
cut anywhere in front of it, or continued by anything but blanks, it is refused as a whole
(`load_whole_text_or_nothing`).
-/

namespace Bytecode

theorem Json.isBlank_iff (char : Char) :
    isBlank char = true ↔ char ∈ [' ', '\t', '\n', '\r'] := by
  simp [isBlank, or_assoc]

namespace DescriptorSet

namespace Reader

variable {completed : List Descriptor} {text : List Char}

/-- Only behind the set is the end of the text no problem. -/
theorem eq_of_atEnd_eq_ok {reader : Reader} {descriptors : List Descriptor}
    (ended : reader.atEnd = .ok descriptors) : reader = ⟨descriptors.reverse, .afterSet⟩ := by
  obtain ⟨completed, place⟩ := reader
  cases place with
  | afterSet =>
      cases ended
      rw [List.reverse_reverse]
  | _ => cases ended

/-- The first character behind the set that is no blank is a problem. -/
theorem run_afterSet_of_not_blank (unblank : ¬ ∀ char ∈ text, Json.isBlank char = true) :
    run ⟨completed, .afterSet⟩ text = malformed .trailingCharacters := by
  induction text with
  | nil => exact absurd nofun unblank
  | cons char rest ih =>
      by_cases first : Json.isBlank char = true
      · rw [run_cons_of_step (step_of_isBlank .afterSet first)]
        exact ih fun others => unblank (List.forall_mem_cons.mpr ⟨first, others⟩)
      · have refused : step ⟨completed, .afterSet⟩ char = malformed .trailingCharacters :=
          if_neg first
        rw [run_cons, refused]
        rfl

end Reader

variable {front behind : List Char} {descriptors : List Descriptor}

theorem run_eq_of_read (listed : read front = .ok descriptors) :
    Reader.start.run front = .ok ⟨descriptors.reverse, .afterSet⟩ := by
  unfold read at listed
  cases run : Reader.start.run front with
  | error problem =>
      rw [run] at listed
      cases listed
  | ok reader =>
      rw [run] at listed
      exact congrArg Except.ok (Reader.eq_of_atEnd_eq_ok listed)

theorem read_append_blanks (listed : read front = .ok descriptors)
    (blank : ∀ char ∈ behind, Json.isBlank char = true) :
    read (front ++ behind) = .ok descriptors := by
  rw [read, Reader.run_append_of_run (run_eq_of_read listed), Reader.run_of_blank .afterSet blank]
  exact congrArg Except.ok (List.reverse_reverse descriptors)

/-- **Only blanks may follow a text that is a set.** -/
theorem read_append_of_not_blank (listed : read front = .ok descriptors)
    (unblank : ¬ ∀ char ∈ behind, Json.isBlank char = true) :
    read (front ++ behind) = malformed .trailingCharacters := by
  rw [read, Reader.run_append_of_run (run_eq_of_read listed),
    Reader.run_afterSet_of_not_blank unblank]
  rfl

/-- **A set is read from its whole text only.** The text of a set without its end is none, if
more than blanks are missing. -/
theorem exists_problem_of_cut (listed : read (front ++ behind) = .ok descriptors)
    (unblank : ¬ ∀ char ∈ behind, Json.isBlank char = true) :
    ∃ problem, read front = .error problem := by
  cases part : read front with
  | error problem => exact ⟨problem, rfl⟩
  -- What is missing would stand behind the end of a set, where it is a problem.
  | ok others => cases listed.symm.trans (read_append_of_not_blank part unblank)

/-- What is cut off a written set has its last bracket. -/
theorem not_blank_of_append_eq_write (whole : front ++ behind = write descriptors)
    (cut : front ≠ write descriptors) : ¬ ∀ char ∈ behind, Json.isBlank char = true := by
  intro blank
  have nonempty : behind ≠ [] := by
    rintro rfl
    exact cut ((List.append_nil front).symm.trans whole)
  have last : behind.getLast? = some ']' := by
    rw [← List.getLast?_append_of_ne_nil front nonempty, whole]
    exact List.getLast?_concat ..
  cases blank ']' (List.mem_of_getLast? last)

/-- **A written set is loaded whole or not at all.** A text that breaks off before the end of
the set is refused for its text, without an event, wherever it breaks off and whatever the set
lists; so is a text that goes on behind the set with anything but blanks. Blanks behind the set
change nothing. -/
theorem load_whole_text_or_nothing (descriptors : List Descriptor) :
    (∀ text, text <+: write descriptors → text ≠ write descriptors →
      ∃ problem, Table.load text = .silent (.error (.descriptorSet problem))) ∧
    (∀ behind, (∃ char ∈ behind, char ∉ [' ', '\t', '\n', '\r']) →
      ∃ problem, Table.load (write descriptors ++ behind) =
        .silent (.error (.descriptorSet problem))) ∧
    ∀ behind, (∀ char ∈ behind, char ∈ [' ', '\t', '\n', '\r']) →
      Table.load (write descriptors ++ behind) = Table.load (write descriptors) := by
  have listed := read_write descriptors
  refine ⟨?_, ?_, ?_⟩
  · rintro text ⟨behind, whole⟩ cut
    obtain ⟨problem, refused⟩ :=
      exists_problem_of_cut (whole ▸ listed) (not_blank_of_append_eq_write whole cut)
    exact ⟨problem.message, Table.load_of_read_eq_error refused⟩
  · rintro behind ⟨char, member, visible⟩
    have unblank : ¬ ∀ char ∈ behind, Json.isBlank char = true := fun blank =>
      visible ((Json.isBlank_iff char).mp (blank char member))
    have refused := read_append_of_not_blank listed unblank
    exact ⟨_, Table.load_of_read_eq_error refused⟩
  · intro behind blank
    have passed : read (write descriptors ++ behind) = .ok descriptors :=
      read_append_blanks listed fun char member => (Json.isBlank_iff char).mpr (blank char member)
    rw [Table.load_of_read_eq_ok passed, Table.load_of_read_eq_ok listed]

/-- A set with a bad width is refused for the width when it is whole, and for its text when its
last bracket is missing or a letter follows. -/
theorem load_whole_text_or_nothing_bad_width :
    let descriptors : List Descriptor := [⟨⟨7⟩, 1, 0⟩, ⟨⟨8⟩, 3, 0⟩]
    (Table.load (write descriptors)).value = .error (.invalidMetadata ⟨8⟩ 3) ∧
    (∃ problem, Table.load (write descriptors).dropLast =
      .silent (.error (.descriptorSet problem))) ∧
    (∃ problem, Table.load (write descriptors ++ [' ', 'x']) =
      .silent (.error (.descriptorSet problem))) ∧
    Table.load (write descriptors ++ [' ', '\n']) = Table.load (write descriptors) := by
  intro descriptors
  obtain ⟨cut, continued, blank⟩ := load_whole_text_or_nothing descriptors
  refine ⟨?_, cut _ (List.dropLast_prefix _) ?_, continued [' ', 'x'] ?_, blank [' ', '\n'] ?_⟩
  · rw [Table.load_of_read_eq_ok (read_write descriptors)]
    rfl
  · intro same
    have positive : 0 < (write descriptors).length := Nat.succ_pos _
    have shorter := congrArg List.length same
    rw [List.length_dropLast] at shorter
    omega
  · exact ⟨'x', by decide, by decide⟩
  · simp

end DescriptorSet

end Bytecode
