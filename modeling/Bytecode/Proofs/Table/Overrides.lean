import Bytecode.Proofs.Table.Replacements
import Mathlib.Data.List.Forall2

/-! # Which descriptors override earlier ones

While a table is built one report is due for every descriptor that overrides an earlier one
(`Descriptor.Overrides`), in the order of the list and up to its first malformed descriptor;
behind them the table is reported, with the number of opcodes that the list leaves with a
stored length (`Table.build_reports_overrides`).
-/

namespace Bytecode

theorem getElem?_takeWhile_eq_some_iff {α : Type} {test : α → Bool} {items : List α} {index : Nat}
    {item : α} : (items.takeWhile test)[index]? = some item ↔
      items[index]? = some item ∧ ∀ other ∈ items.take (index + 1), test other = true := by
  induction items generalizing index with
  | nil => simp only [List.takeWhile_nil, List.getElem?_nil, reduceCtorEq, false_and]
  | cons first rest ih =>
      by_cases passed : test first = true
      · rw [List.takeWhile_cons_of_pos passed, List.take_succ_cons, List.forall_mem_cons]
        cases index with
        | zero => simp [passed]
        | succ index => simp [passed, ih]
      · rw [List.takeWhile_cons_of_neg passed, List.take_succ_cons, List.forall_mem_cons]
        simp only [List.getElem?_nil, reduceCtorEq, passed, Bool.false_eq_true, false_and,
          and_false]

/-- The members for which a partial function has a value, in order, with these values. -/
theorem forall₂_filter_filterMap {α β : Type} (function : α → Option β) (items : List α) :
    List.Forall₂ (fun item value => item ∈ items ∧ function item = some value)
      (items.filter fun item => (function item).isSome) (items.filterMap function) := by
  induction items with
  | nil => exact .nil
  | cons first rest ih =>
      have later := ih.imp fun _ _ (paired : _ ∧ _) =>
        And.intro (List.mem_cons_of_mem first paired.1) paired.2
      cases found : function first with
      | none =>
          rw [List.filter_cons_of_neg (by simp [found]), List.filterMap_cons_none found]
          exact later
      | some value =>
          rw [List.filter_cons_of_pos (by simp [found]), List.filterMap_cons_some found]
          exact .cons ⟨List.mem_cons_self, found⟩ later

/-- The last descriptor for an opcode is one for it that none for it comes after. -/
theorem Opcode.descriptor?_eq_some_iff {opcode : Opcode} {descriptors : List Descriptor}
    {last : Descriptor} : opcode.descriptor? descriptors = some last ↔
      last.opcode = opcode ∧ ∃ front behind, descriptors = front ++ last :: behind ∧
        ∀ other ∈ behind, other.opcode ≠ opcode := by
  rw [descriptor?, List.getLast?_filter, List.find?_eq_some_iff_append, decide_eq_true_eq]
  refine and_congr_right fun _ => ?_
  constructor
  · rintro ⟨behind, front, split, others⟩
    refine ⟨front.reverse, behind.reverse, ?_, ?_⟩
    · rw [← List.reverse_reverse descriptors, split]
      simp only [List.reverse_append, List.reverse_cons, List.append_assoc, List.singleton_append]
    · intro other member
      simpa using others other (List.mem_reverse.mp member)
  · rintro ⟨front, behind, rfl, others⟩
    refine ⟨behind.reverse, front.reverse, ?_, ?_⟩
    · simp only [List.reverse_append, List.reverse_cons, List.append_assoc, List.singleton_append]
    · intro other member
      simpa using others other (List.mem_reverse.mp member)

namespace Descriptor

/-- **A descriptor that overrides an earlier one.** Up to `index` all descriptors are well
formed; among those before it there is one for the same opcode; and the last of these states
another encoding. The event names the opcode and both encodings. -/
inductive Overrides (descriptors : List Descriptor) (index : Nat) : Event → Prop where
  | intro {descriptor former : Descriptor} {front between : List Descriptor}
      {previous replacement : Encoding}
      (wellFormed : ∀ other ∈ descriptors.take (index + 1), other.isMalformed = false)
      (found : descriptors[index]? = some descriptor)
      (earlier : descriptors.take index = front ++ former :: between)
      (same : former.opcode = descriptor.opcode)
      (latest : ∀ other ∈ between, other.opcode ≠ descriptor.opcode)
      (before : former.States previous) (now : descriptor.States replacement)
      (differs : previous ≠ replacement) :
      Overrides descriptors index (.encodingReplaced descriptor.opcode previous replacement)

theorem replacement?_eq_some_iff {descriptor : Descriptor} {earlier : List Descriptor}
    {event : Event} : descriptor.replacement? earlier = some event ↔
      ∃ former previous replacement,
        descriptor.opcode.descriptor? earlier = some former ∧ former.States previous ∧
          descriptor.States replacement ∧ previous ≠ replacement ∧
            event = .encodingReplaced descriptor.opcode previous replacement := by
  constructor
  · intro due
    unfold replacement? at due
    split at due
    · next previous replacement mentioned stated =>
        obtain ⟨former, last, before⟩ := Option.bind_eq_some_iff.mp mentioned
        split at due
        · cases due
        · next differs =>
            exact ⟨former, previous, replacement, last, encoding?_eq_some_iff.mp before,
              encoding?_eq_some_iff.mp stated, differs, (Option.some.inj due).symm⟩
    · cases due
  · rintro ⟨former, previous, replacement, last, before, now, differs, rfl⟩
    have mentioned : (descriptor.opcode.descriptor? earlier).bind encoding? = some previous := by
      rw [last, Option.bind_some, encoding?_eq_some_iff.mpr before]
    simp only [replacement?, mentioned, encoding?_eq_some_iff.mpr now, if_neg differs]

/-- A descriptor overrides an earlier one exactly if its report is called for. -/
theorem overrides_iff {descriptors : List Descriptor} {index : Nat} {event : Event} :
    Overrides descriptors index event ↔ ∃ descriptor,
      (descriptors.takeWhile fun other => !other.isMalformed)[index]? = some descriptor ∧
        descriptor.replacement? (descriptors.take index) = some event := by
  simp only [getElem?_takeWhile_eq_some_iff, Bool.not_eq_true']
  constructor
  · rintro ⟨wellFormed, found, earlier, same, latest, before, now, differs⟩
    have last := Opcode.descriptor?_eq_some_iff.mpr ⟨same, _, _, earlier, latest⟩
    exact ⟨_, ⟨found, wellFormed⟩,
      replacement?_eq_some_iff.mpr ⟨_, _, _, last, before, now, differs, rfl⟩⟩
  · rintro ⟨descriptor, ⟨found, wellFormed⟩, due⟩
    obtain ⟨former, previous, replacement, last, before, now, differs, rfl⟩ :=
      replacement?_eq_some_iff.mp due
    obtain ⟨same, front, between, earlier, latest⟩ := Opcode.descriptor?_eq_some_iff.mp last
    exact .intro wellFormed found earlier same latest before now differs

/-- The reports that a list calls for are those of its overriding descriptors, each at its
index and once. -/
theorem exists_indices_replacements (descriptors : List Descriptor) :
    ∃ indices : List Nat, indices.Pairwise (· < ·) ∧
      (∀ index, index ∈ indices ↔ ∃ event, Overrides descriptors index event) ∧
      List.Forall₂ (Overrides descriptors) indices (replacements descriptors) := by
  let kept := (descriptors.takeWhile fun other => !other.isMalformed).zipIdx
  let due : Descriptor × Nat → Option Event := fun entry =>
    entry.1.replacement? (descriptors.take entry.2)
  have mem_kept {descriptor : Descriptor} {index : Nat} : (descriptor, index) ∈ kept ↔
      (descriptors.takeWhile fun other => !other.isMalformed)[index]? = some descriptor :=
    List.mk_mem_zipIdx_iff_getElem?
  refine ⟨(kept.filter fun entry => (due entry).isSome).map Prod.snd, ?_, ?_, ?_⟩
  · have ascending : (kept.map Prod.snd).Pairwise (· < ·) := by
      rw [List.zipIdx_map_snd]
      exact List.pairwise_lt_range' 1
    exact ascending.sublist (List.filter_sublist.map _)
  · intro index
    simp only [overrides_iff, List.mem_map, List.mem_filter, Option.isSome_iff_exists]
    constructor
    · rintro ⟨⟨descriptor, _⟩, ⟨member, event, called⟩, rfl⟩
      exact ⟨event, descriptor, mem_kept.mp member, called⟩
    · rintro ⟨event, descriptor, found, called⟩
      exact ⟨(descriptor, index), ⟨mem_kept.mpr found, event, called⟩, rfl⟩
  · rw [List.forall₂_map_left_iff]
    refine (forall₂_filter_filterMap due kept).imp ?_
    rintro ⟨descriptor, index⟩ event ⟨member, called⟩
    exact overrides_iff.mpr ⟨descriptor, mem_kept.mp member, called⟩

/-- A size that is stated, replaced, restored and stated again calls for two reports; a stored
length that comes twice with different sizes calls for none. -/
example :
    replacements [⟨⟨1⟩, 0, 0⟩, ⟨⟨1⟩, 0, 2⟩, ⟨⟨2⟩, 1, 7⟩, ⟨⟨1⟩, 0, 0⟩, ⟨⟨1⟩, 0, 0⟩, ⟨⟨2⟩, 1, 9⟩] =
      [.encodingReplaced ⟨1⟩ (.fixed 0) (.fixed 2),
        .encodingReplaced ⟨1⟩ (.fixed 2) (.fixed 0)] := by
  decide

end Descriptor

theorem Descriptor.States.isPrefixed_eq {descriptor : Descriptor} {encoding : Encoding}
    (states : descriptor.States encoding) :
    encoding.isPrefixed = decide (descriptor.prefixWidth ≠ 0) := by
  cases states with
  | fixed zero => simp [Encoding.isPrefixed, zero]
  | prefixed stored => simp [Encoding.isPrefixed, LengthWidth.ne_zero_of_toNat_eq stored]

/-- What a list settles for an opcode is a stored length exactly if the last descriptor for
the opcode has a width. -/
theorem Encoding.SettledBy.isPrefixed_eq {encoding : Encoding} {descriptors : List Descriptor}
    {opcode : Opcode} (settled : encoding.SettledBy descriptors opcode) :
    encoding.isPrefixed =
      (opcode.descriptor? descriptors).any fun last => last.prefixWidth ≠ 0 := by
  unfold SettledBy at settled
  cases last : opcode.descriptor? descriptors with
  | none =>
      rw [last] at settled
      cases settled
      rfl
  | some descriptor =>
      rw [last] at settled
      exact settled.isPrefixed_eq

namespace Table

/-- **Building reports exactly the overriding descriptors.** They are reported in the order
of the list, each once: those that come after a descriptor for the same opcode and state
another encoding than the last one of these, up to the first malformed descriptor. A list
without a malformed one has its table reported last, with the number of its descriptors and
the number of opcodes whose last descriptor has a width; no other list has. -/
theorem build_reports_overrides (descriptors : List Descriptor) :
    ∃ (indices : List Nat) (reports : List Event), indices.Pairwise (· < ·) ∧
      (∀ index, index ∈ indices ↔ ∃ event, Descriptor.Overrides descriptors index event) ∧
      List.Forall₂ (Descriptor.Overrides descriptors) indices reports ∧
      (build descriptors).events = reports ++
        match descriptors.find? Descriptor.isMalformed with
        | some _ => []
        | none => [.tableBuilt descriptors.length (Opcode.all.countP fun opcode =>
            (opcode.descriptor? descriptors).any fun last => last.prefixWidth ≠ 0)] := by
  obtain ⟨indices, ascending, complete, paired⟩ :=
    Descriptor.exists_indices_replacements descriptors
  refine ⟨indices, Descriptor.replacements descriptors, ascending, complete, paired, ?_⟩
  rw [events_build]
  cases first : descriptors.find? Descriptor.isMalformed with
  | some malformed => rw [value_build_eq_error_iff.mpr ⟨malformed, first, rfl⟩]
  | none =>
      obtain ⟨table, built, settled⟩ := exists_settled_build (wellFormed_of_find?_eq_none first)
      have counted : table.prefixedEntries = Opcode.all.countP fun opcode =>
          (opcode.descriptor? descriptors).any fun last => last.prefixWidth ≠ 0 :=
        List.countP_congr fun opcode _ => by rw [(settled opcode).isPrefixed_eq]
      simp only [built, counted]

end Table

end Bytecode
