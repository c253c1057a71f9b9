import Bytecode.Neo
import Bytecode.Proofs.Table.Meaning

/-! # What is reported while a table is built

Every descriptor is held against the last one before it for the same opcode. Where the
two say different things this is reported, in the order of the list and up to its first
malformed descriptor. A table that was built is reported last (`Table.events_build`).
-/

namespace Bytecode

namespace Descriptor

/-- **The report that a descriptor calls for.** One is due if the last of the earlier
descriptors for the same opcode says something else. -/
def replacement? (descriptor : Descriptor) (earlier : List Descriptor) : Option Event :=
  match (descriptor.opcode.descriptor? earlier).bind encoding?, descriptor.encoding? with
  | some previous, some encoding =>
      if previous = encoding then none
      else some (.encodingReplaced descriptor.opcode previous encoding)
  | _, _ => none

/-- The reports that a list calls for, in its own order and up to its first malformed
descriptor. -/
def replacements (descriptors : List Descriptor) : List Event :=
  ((descriptors.takeWhile fun descriptor => !descriptor.isMalformed).zipIdx).filterMap
    fun (descriptor, index) => descriptor.replacement? (descriptors.take index)

theorem exists_eq_of_mem_replacements {descriptors : List Descriptor} {event : Event}
    (member : event ∈ replacements descriptors) :
    ∃ opcode previous replacement, event = .encodingReplaced opcode previous replacement := by
  obtain ⟨⟨descriptor, index⟩, -, due⟩ := List.mem_filterMap.mp member
  simp only [replacement?] at due
  split at due
  · split at due
    · cases due
    · exact ⟨_, _, _, (Option.some.inj due).symm⟩
  · cases due

theorem replacement?_eq_none {descriptor : Descriptor} {earlier : List Descriptor}
    (first : ∀ other ∈ earlier, other.opcode ≠ descriptor.opcode) :
    descriptor.replacement? earlier = none := by
  have unmentioned : descriptor.opcode.descriptor? earlier = none :=
    Opcode.descriptor?_eq_none_iff.mpr first
  simp only [replacement?, unmentioned, Option.bind_none]

/-- Where no opcode comes twice, no report is called for. -/
theorem replacements_eq_nil_of_nodup {descriptors : List Descriptor}
    (nodup : (descriptors.map (·.opcode)).Nodup) : replacements descriptors = [] := by
  apply List.filterMap_eq_nil_iff.mpr
  rintro ⟨descriptor, index⟩ member
  apply replacement?_eq_none
  intro other earlier same
  have kept := List.mk_mem_zipIdx_iff_getElem?.mp member
  obtain ⟨inside, -⟩ := List.getElem?_eq_some_iff.mp kept
  obtain ⟨rest, whole⟩ : _ <+: descriptors :=
    List.takeWhile_prefix fun descriptor => !descriptor.isMalformed
  have found : descriptors[index]? = some descriptor := by
    rw [← whole, List.getElem?_append_left inside, kept]
  have split : descriptors =
      descriptors.take index ++ descriptor :: descriptors.drop (index + 1) := by
    obtain ⟨bounded, rfl⟩ := List.getElem?_eq_some_iff.mp found
    rw [← List.drop_eq_getElem_cons bounded, List.take_append_drop]
  rw [split, List.map_append, List.map_cons, List.nodup_append] at nodup
  exact nodup.2.2 _ (List.mem_map_of_mem earlier) _ List.mem_cons_self same

end Descriptor

theorem Opcode.descriptor?_append_singleton (opcode : Opcode) (earlier : List Descriptor)
    (descriptor : Descriptor) :
    opcode.descriptor? (earlier ++ [descriptor]) =
      if descriptor.opcode = opcode then some descriptor else opcode.descriptor? earlier := by
  by_cases same : descriptor.opcode = opcode
  · simp [descriptor?, same]
  · simp [descriptor?, same]

namespace Draft

/-- A draft knows of every opcode what the last of the earlier descriptors said. -/
def Knows (draft : Draft) (earlier : List Descriptor) : Prop :=
  ∀ opcode : Opcode, draft.mention? opcode = (opcode.descriptor? earlier).bind Descriptor.encoding?

theorem knows_blank : blank.Knows [] := mention?_blank

variable {draft : Draft} {earlier : List Descriptor}

theorem Knows.enter (knows : draft.Knows earlier) {descriptor : Descriptor} {encoding : Encoding}
    (stated : descriptor.encoding? = some encoding) :
    (draft.enter descriptor.opcode encoding).Knows (earlier ++ [descriptor]) := by
  intro opcode
  rw [mention?_enter, Opcode.descriptor?_append_singleton]
  by_cases same : opcode = descriptor.opcode
  · rw [if_pos same, if_pos same.symm, Option.bind_some, stated]
  · rw [if_neg same, if_neg (Ne.symm same), knows opcode]

theorem Knows.replacementEvents_eq (knows : draft.Knows earlier) {descriptor : Descriptor}
    {encoding : Encoding} (stated : descriptor.encoding? = some encoding) :
    draft.replacementEvents descriptor.opcode encoding =
      (descriptor.replacement? earlier).toList := by
  unfold replacementEvents Descriptor.replacement?
  rw [knows descriptor.opcode, stated]
  cases (descriptor.opcode.descriptor? earlier).bind Descriptor.encoding? with
  | none => rfl
  | some previous =>
      by_cases same : previous = encoding
      · simp only [same, ↓reduceIte, Option.toList_none]
      · simp only [same, ↓reduceIte, Option.toList_some]

/-- Entering the rest of a list reports what the rest calls for, given the whole list. -/
theorem Knows.events_enterAll (knows : draft.Knows earlier) (rest : List Descriptor) :
    (draft.enterAll rest).events =
      ((rest.takeWhile fun descriptor => !descriptor.isMalformed).zipIdx earlier.length).filterMap
        fun (descriptor, index) => descriptor.replacement? ((earlier ++ rest).take index) := by
  induction rest generalizing draft earlier with
  | nil => rfl
  | cons descriptor rest ih =>
      cases stated : descriptor.encoding? with
      | none =>
          have malformed := Descriptor.encoding?_eq_none_iff_isMalformed.mp stated
          simp only [enterAll, stated, Logged.silent, List.takeWhile_cons, malformed, Bool.not_true,
            Bool.false_eq_true, ↓reduceIte, List.zipIdx_nil, List.filterMap_nil]
      | some encoding =>
          have admitted : descriptor.isMalformed = false :=
            Descriptor.isSome_encoding?_iff.mp (by rw [stated, Option.isSome_some])
          have later := ih (knows.enter stated)
          rw [List.length_append, List.length_singleton, List.append_assoc,
            List.singleton_append] at later
          simp only [enterAll, stated, later, knows.replacementEvents_eq stated,
            List.takeWhile_cons, admitted, Bool.not_false, ↓reduceIte, List.zipIdx_cons,
            List.filterMap_cons, List.take_left]
          cases descriptor.replacement? earlier <;> rfl

end Draft

namespace Table

/-- **The reports of building a table.** First come the replacements in the list, then the
table, if it was built. -/
theorem events_build (descriptors : List Descriptor) :
    (build descriptors).events = Descriptor.replacements descriptors ++
      match (build descriptors).value with
      | .ok table => [.tableBuilt descriptors.length table.prefixedEntries]
      | .error _ => [] := by
  have entered := Draft.knows_blank.events_enterAll descriptors
  rw [List.length_nil, List.nil_append] at entered
  simp only [build]
  cases (Draft.blank.enterAll descriptors).value with
  | error fault => exact entered.trans (List.append_nil _).symm
  | ok draft => exact congrArg (· ++ _) entered

end Table

namespace Neo

theorem replacements_eq_nil : Descriptor.replacements descriptors = [] :=
  Descriptor.replacements_eq_nil_of_nodup descriptors_nodup.1

/-- The Neo descriptors replace nothing, so only their table is reported. -/
theorem events_loadTable : loadTable.events = [.tableBuilt 47 loadTable.value.prefixedEntries] := by
  obtain ⟨table, built, -⟩ := Table.exists_settled_build encoding?_isSome
  have reported := Table.events_build descriptors
  rw [replacements_eq_nil, List.nil_append, built, descriptors_nodup.2] at reported
  have loaded : loadTable.value = table := by
    simp only [loadTable, built, Except.toOption, Option.getD_some]
  rw [loaded]
  exact reported

end Neo

end Bytecode
