import Bytecode.Proofs.Walk.Tiling

/-! # A walk under way is a place among its items

The items of a script are fixed, so all that a walk under way can be is an index into
them: how many were yielded (`Cursor.StandsAt`). Stepping, draining, keeping and
returning only move that index (`Bookmark.StandsAt.perform`), and the position is the
sum of what the items before the index passed.
-/

namespace Bytecode

namespace Item

/-- The bytes that a walk passes with an item: an instruction, or nothing at a fault. -/
def passed : Item → Nat
  | .decoded _ instruction => instruction.size
  | .rejected _ => 0

/-- The bytes that a walk passes with a list of items. -/
def passedBy : List Item → Nat
  | [] => 0
  | item :: rest => item.passed + passedBy rest

@[simp] theorem passedBy_nil : passedBy [] = 0 := rfl

@[simp] theorem passedBy_cons (item : Item) (rest : List Item) :
    passedBy (item :: rest) = item.passed + passedBy rest := rfl

@[simp] theorem passedBy_append (first second : List Item) :
    passedBy (first ++ second) = passedBy first + passedBy second := by
  induction first with
  | nil => rw [List.nil_append, passedBy_nil, Nat.zero_add]
  | cons item rest ih => rw [List.cons_append, passedBy_cons, passedBy_cons, ih, Nat.add_assoc]

theorem passedBy_take_le (items : List Item) (index : Nat) :
    passedBy (items.take index) ≤ passedBy items := by
  have split : passedBy (items.take index) + passedBy (items.drop index) = passedBy items := by
    rw [← passedBy_append, List.take_append_drop]
  omega

theorem passedBy_layOut (position : Nat) (program : Program) :
    passedBy (program.layOut position) = program.size := by
  induction program generalizing position with
  | nil => rfl
  | cons instruction rest ih =>
      rw [Program.layOut_cons, passedBy_cons, ih, passed, Program.size_cons]

theorem passedBy_rejected (met : Option Fault) : passedBy (met.toList.map rejected) = 0 := by
  cases met <;> rfl

end Item

/-- Keep the place, do something else, and return. -/
def WalkCommand.detour (between : List WalkCommand) : List WalkCommand :=
  .save :: between ++ [.restore]

/-- A place among the items of a walk: how many were yielded, and the number kept for
later. -/
structure Place where
  index : Nat
  kept : Nat

namespace Place

/-- Before the first item, with the start kept. -/
def start : Place := ⟨0, 0⟩

/-- **What a command does to a place.** The next item is that at the index, if there is
one; the rest is all items from the index on. -/
def perform (items : List Item) (place : Place) : WalkCommand → WalkAnswer × Place
  | .next =>
      match items[place.index]? with
      | some item => (.next (some item), { place with index := place.index + 1 })
      | none => (.next none, place)
  | .rest => (.rest (items.drop place.index), { place with index := items.length })
  | .save => (.saved, { place with kept := place.index })
  | .restore => (.restored, { place with index := place.kept })

/-- Carry out commands in order: each answer with the bytes that the items before the
index pass. -/
def performAll (items : List Item) (place : Place) : List WalkCommand → List (WalkAnswer × Nat)
  | [] => []
  | command :: rest =>
      let (answer, after) := place.perform items command
      (answer, Item.passedBy (items.take after.index)) :: after.performAll items rest

theorem le_of_mem_performAll {items : List Item} {place : Place} {commands : List WalkCommand}
    {entry : WalkAnswer × Nat} (member : entry ∈ place.performAll items commands) :
    entry.2 ≤ Item.passedBy items := by
  induction commands generalizing place with
  | nil => cases member
  | cons command rest ih =>
      rcases List.mem_cons.mp member with rfl | later
      · exact Item.passedBy_take_le items _
      · exact ih later

end Place

namespace Cursor

/-- **A cursor at an index of the items.** It has yielded the items before the index and
has those from the index on ahead. -/
structure StandsAt (cursor : Cursor) (items : List Item) (index : Nat) : Prop where
  index_le : index ≤ items.length
  ahead_eq : cursor.drain.1.value = items.drop index
  position_eq : cursor.position = Item.passedBy (items.take index)

theorem standsAt_start (decoder : Decoder) (script : Bytes) :
    (start decoder script).StandsAt (decoder.walk script).value.items 0 :=
  ⟨Nat.zero_le _, rfl, rfl⟩

/-- A step moves the position by what its item passes. -/
theorem position_of_next? {cursor later : Cursor} {item : Logged Item}
    (step : cursor.next? = some (item, later)) :
    later.position = cursor.position + item.value.passed := by
  obtain ⟨-, -, ⟨instruction, -, rfl, rfl⟩ | ⟨fault, -, rfl, rfl⟩⟩ := next?_cases step
  · rfl
  · rfl

theorem position_drain (cursor : Cursor) :
    cursor.drain.2.position = cursor.position + Item.passedBy cursor.drain.1.value := by
  induction cursor using stepInduction with
  | stopped cursor step => rw [drain_of_next?_eq_none step, Item.passedBy_nil, Nat.add_zero]
  | stepped cursor item later step ih =>
      rw [drain_of_next?_eq_some step, ih, position_of_next? step, Item.passedBy_cons,
        Nat.add_assoc]

namespace StandsAt

variable {cursor : Cursor} {items : List Item} {index : Nat}

theorem getElem?_of_next?_eq_none (stands : cursor.StandsAt items index)
    (step : cursor.next? = none) : items[index]? = none := by
  have ahead := stands.ahead_eq
  rw [drain_of_next?_eq_none step] at ahead
  exact List.getElem?_eq_none (List.drop_eq_nil_iff.mp ahead.symm)

theorem drop_of_next?_eq_some (stands : cursor.StandsAt items index) {later : Cursor}
    {item : Logged Item} (step : cursor.next? = some (item, later)) :
    items.drop index = item.value :: later.drain.1.value := by
  rw [← stands.ahead_eq, drain_of_next?_eq_some step]

theorem getElem?_of_next?_eq_some (stands : cursor.StandsAt items index) {later : Cursor}
    {item : Logged Item} (step : cursor.next? = some (item, later)) :
    items[index]? = some item.value := by
  have first : (items.drop index)[0]? = items[index + 0]? := List.getElem?_drop
  rw [stands.drop_of_next?_eq_some step, Nat.add_zero] at first
  exact first.symm

/-- A step goes from an index to the next one. -/
theorem step (stands : cursor.StandsAt items index) {later : Cursor} {item : Logged Item}
    (step : cursor.next? = some (item, later)) : later.StandsAt items (index + 1) := by
  have found := stands.getElem?_of_next?_eq_some step
  obtain ⟨inside, -⟩ := List.getElem?_eq_some_iff.mp found
  refine ⟨inside, ?_, ?_⟩
  · have tails := congrArg List.tail (stands.drop_of_next?_eq_some step)
    rw [List.tail_drop, List.tail_cons] at tails
    exact tails.symm
  · rw [position_of_next? step, stands.position_eq, List.take_add_one, found, Option.toList_some,
      Item.passedBy_append, Item.passedBy_cons, Item.passedBy_nil, Nat.add_zero]

/-- Draining goes to the end of the items. -/
theorem drained (stands : cursor.StandsAt items index) :
    cursor.drain.2.StandsAt items items.length := by
  refine ⟨Nat.le_refl _, ?_, ?_⟩
  · rw [drain_of_next?_eq_none cursor.yields_drain.2, List.drop_length]
  · rw [position_drain, stands.ahead_eq, stands.position_eq, ← Item.passedBy_append,
      List.take_append_drop, List.take_length]

end StandsAt

end Cursor

namespace Bookmark

/-- Both cursors of a bookmark stand where a place says. -/
structure StandsAt (bookmark : Bookmark) (items : List Item) (place : Place) : Prop where
  cursor : bookmark.cursor.StandsAt items place.index
  kept : bookmark.kept.StandsAt items place.kept

theorem standsAt_start (decoder : Decoder) (script : Bytes) :
    (start decoder script).StandsAt (decoder.walk script).value.items .start :=
  ⟨Cursor.standsAt_start decoder script, Cursor.standsAt_start decoder script⟩

variable {bookmark : Bookmark} {items : List Item} {place : Place}

/-- A command is answered as the place says, and the place after it is again that of the
bookmark. -/
theorem StandsAt.perform (stands : bookmark.StandsAt items place) (command : WalkCommand) :
    (bookmark.perform command).1.value = (place.perform items command).1 ∧
      (bookmark.perform command).2.StandsAt items (place.perform items command).2 := by
  cases command with
  | next =>
      simp only [Bookmark.perform, Place.perform]
      cases step : bookmark.cursor.next? with
      | none =>
          rw [stands.cursor.getElem?_of_next?_eq_none step]
          exact ⟨rfl, stands⟩
      | some found =>
          rw [stands.cursor.getElem?_of_next?_eq_some step]
          exact ⟨rfl, stands.cursor.step step, stands.kept⟩
  | rest =>
      exact ⟨congrArg WalkAnswer.rest stands.cursor.ahead_eq, stands.cursor.drained, stands.kept⟩
  | save => exact ⟨rfl, stands.cursor, stands.cursor⟩
  | restore => exact ⟨rfl, stands.kept, stands.kept⟩

theorem StandsAt.value_performAll (stands : bookmark.StandsAt items place)
    (commands : List WalkCommand) :
    (bookmark.performAll commands).value = place.performAll items commands := by
  induction commands generalizing bookmark place with
  | nil => rfl
  | cons command rest ih =>
      obtain ⟨answered, standsAfter⟩ := stands.perform command
      simp only [Bookmark.performAll, Place.performAll, answered, ih standsAfter,
        standsAfter.cursor.position_eq]

/-- The bookmark after commands. -/
def after (bookmark : Bookmark) : List WalkCommand → Bookmark
  | [] => bookmark
  | command :: rest => (bookmark.perform command).2.after rest

@[simp] theorem after_nil : bookmark.after [] = bookmark := rfl

@[simp] theorem after_cons (command : WalkCommand) (rest : List WalkCommand) :
    bookmark.after (command :: rest) = (bookmark.perform command).2.after rest := rfl

theorem after_append (first second : List WalkCommand) :
    bookmark.after (first ++ second) = (bookmark.after first).after second := by
  induction first generalizing bookmark with
  | nil => rfl
  | cons command rest ih => simp only [List.cons_append, after_cons, ih]

@[simp] theorem value_performAll_nil : (bookmark.performAll []).value = [] := rfl

@[simp] theorem value_performAll_cons (command : WalkCommand) (rest : List WalkCommand) :
    (bookmark.performAll (command :: rest)).value =
      ((bookmark.perform command).1.value, (bookmark.perform command).2.cursor.position) ::
        ((bookmark.perform command).2.performAll rest).value := rfl

theorem value_performAll_append (first second : List WalkCommand) :
    (bookmark.performAll (first ++ second)).value =
      (bookmark.performAll first).value ++ ((bookmark.after first).performAll second).value := by
  induction first generalizing bookmark with
  | nil => rfl
  | cons command rest ih =>
      simp only [List.cons_append, value_performAll_cons, after_cons, ih]

theorem length_value_performAll (commands : List WalkCommand) :
    (bookmark.performAll commands).value.length = commands.length := by
  induction commands generalizing bookmark with
  | nil => rfl
  | cons command rest ih => simp only [value_performAll_cons, List.length_cons, ih]

/-- Without a step left, asking for the next item changes nothing. -/
theorem value_performAll_replicate_next (stopped : bookmark.cursor.next? = none) (count : Nat) :
    (bookmark.performAll (List.replicate count .next)).value =
      List.replicate count (.next none, bookmark.cursor.position) := by
  have stays : bookmark.perform .next = (⟨.next none, []⟩, bookmark) := by
    simp only [perform, stopped]
  induction count with
  | zero => rfl
  | succ count ih => simp only [List.replicate_succ, value_performAll_cons, stays, ih]

/-- After a fault no step is left. -/
theorem next?_eq_none_of_rejected {fault : Fault}
    (answered : (bookmark.perform .next).1.value = .next (some (.rejected fault))) :
    (bookmark.perform .next).2.cursor.next? = none := by
  simp only [perform] at answered ⊢
  cases step : bookmark.cursor.next? with
  | none => simp [step] at answered
  | some found =>
      obtain ⟨item, later⟩ := found
      simp only [step, WalkAnswer.next.injEq, Option.some.injEq] at answered
      obtain ⟨-, -, ⟨instruction, -, rfl, -⟩ | ⟨fault, -, -, rfl⟩⟩ := Cursor.next?_cases step
      · cases answered
      · exact (Cursor.next?_eq_none_iff _).mpr (.inl rfl)

/-- Only keeping a place changes the one that is kept. -/
theorem kept_after {commands : List WalkCommand} (unsaved : .save ∉ commands) :
    (bookmark.after commands).kept = bookmark.kept := by
  induction commands generalizing bookmark with
  | nil => rfl
  | cons command rest ih =>
      obtain ⟨notHere, notLater⟩ := not_or.mp (mt List.mem_cons.mpr unsaved)
      rw [after_cons, ih notLater]
      cases command with
      | next =>
          simp only [perform]
          cases bookmark.cursor.next? <;> rfl
      | rest => rfl
      | save => exact absurd rfl notHere
      | restore => rfl

/-- Returning to a place that was kept undoes what was done since. -/
theorem after_detour {between : List WalkCommand} (unsaved : .save ∉ between) :
    bookmark.after (WalkCommand.detour between) = bookmark.after [.save] := by
  have kept : ((bookmark.after [.save]).after between).kept = (bookmark.after [.save]).kept :=
    kept_after unsaved
  rw [WalkCommand.detour, List.cons_append, after_cons, after_append]
  change (⟨((bookmark.after [.save]).after between).kept,
    ((bookmark.after [.save]).after between).kept⟩ : Bookmark) = _
  rw [kept]
  rfl

theorem after_append_detour (commands : List WalkCommand) {between : List WalkCommand}
    (unsaved : .save ∉ between) :
    bookmark.after (commands ++ WalkCommand.detour between) =
      bookmark.after (commands ++ [WalkCommand.save]) := by
  rw [after_append, after_detour unsaved, after_append]

/-- What commands from the start of a walk are answered, each answer with the position
after it. -/
def answers (decoder : Decoder) (script : Bytes) (commands : List WalkCommand) :
    List (WalkAnswer × Nat) :=
  ((start decoder script).performAll commands).value

variable {decoder : Decoder} {script : Bytes}

theorem answers_eq_performAll (commands : List WalkCommand) :
    answers decoder script commands =
      Place.start.performAll (decoder.walk script).value.items commands :=
  (standsAt_start decoder script).value_performAll commands

theorem answers_append (first second : List WalkCommand) :
    answers decoder script (first ++ second) =
      answers decoder script first ++
        (((start decoder script).after first).performAll second).value :=
  value_performAll_append first second

/-- The items of a walk pass no more bytes than the script has. -/
theorem passedBy_walk_le (decoder : Decoder) (script : Bytes) :
    Item.passedBy (decoder.walk script).value.items ≤ script.length := by
  obtain ⟨program, ahead, met, split, admitted, itemsEq, -, -⟩ :=
    (decoder.course_walk script).exists_program
  have total : script.length = program.size + ahead.length := by
    rw [split, List.length_append, Program.length_assemble admitted]
  rw [itemsEq, Item.passedBy_append, Item.passedBy_layOut, Item.passedBy_rejected]
  omega

theorem answers_replicate_next {commands : List WalkCommand} {fault : Fault} {position : Nat}
    (faulted : (answers decoder script (commands ++ [WalkCommand.next])).getLast? =
      some (.next (some (.rejected fault)), position)) (count : Nat) :
    answers decoder script
        (commands ++ [WalkCommand.next] ++ List.replicate count WalkCommand.next) =
      answers decoder script (commands ++ [WalkCommand.next]) ++
        List.replicate count (.next none, position) := by
  rw [answers_append, value_performAll_cons, value_performAll_nil, List.getLast?_concat,
    Option.some.injEq, Prod.mk.injEq] at faulted
  obtain ⟨answered, rfl⟩ := faulted
  have stopped := next?_eq_none_of_rejected answered
  rw [answers_append, after_append, after_cons, after_nil, value_performAll_replicate_next stopped]

theorem answers_detour (commands : List WalkCommand) {between : List WalkCommand}
    (unsaved : .save ∉ between) (further : List WalkCommand) :
    answers decoder script (commands ++ WalkCommand.detour between ++ further) =
      answers decoder script (commands ++ WalkCommand.detour between) ++
        (answers decoder script (commands ++ [WalkCommand.save] ++ further)).drop
          (commands.length + 1) := by
  have counted : (answers decoder script (commands ++ [WalkCommand.save])).length =
      commands.length + 1 := by
    rw [answers, length_value_performAll, List.length_append, List.length_singleton]
  rw [answers_append, answers_append (commands ++ [WalkCommand.save]),
    after_append_detour commands unsaved, ← counted, List.drop_left]

/-- **A walk under way is a place in a fixed list.** Whatever is asked of a walk under
way is answered from the items of the walk over the whole script, at an index that
steps, is kept and is returned to; the position is the sum of the sizes before it, never
beyond the end of the script. After a fault nothing more is yielded, however often the
next item is asked for; but a return to a place that was kept undoes all that came after,
so that what follows is answered as it would have been there, a fault included. -/
theorem answers_from_fixed_items (decoder : Decoder) (script : Bytes) :
    (∀ commands, answers decoder script commands =
      Place.start.performAll (decoder.walk script).value.items commands) ∧
    (∀ commands, ∀ entry ∈ answers decoder script commands, entry.2 ≤ script.length) ∧
    (∀ commands fault position,
      (answers decoder script (commands ++ [WalkCommand.next])).getLast? =
        some (.next (some (.rejected fault)), position) →
      ∀ count, answers decoder script
          (commands ++ [WalkCommand.next] ++ List.replicate count WalkCommand.next) =
        answers decoder script (commands ++ [WalkCommand.next]) ++
          List.replicate count (.next none, position)) ∧
    ∀ commands between further, .save ∉ between →
      answers decoder script (commands ++ WalkCommand.detour between ++ further) =
        answers decoder script (commands ++ WalkCommand.detour between) ++
          (answers decoder script (commands ++ [WalkCommand.save] ++ further)).drop
            (commands.length + 1) := by
  refine ⟨answers_eq_performAll, ?_, ?_, ?_⟩
  · intro commands entry member
    rw [answers_eq_performAll] at member
    exact Nat.le_trans (Place.le_of_mem_performAll member) (passedBy_walk_le decoder script)
  · intro commands fault position faulted count
    exact answers_replicate_next faulted count
  · intro commands between further unsaved
    exact answers_detour commands unsaved further

/-- A fault after a first instruction, asked for again and again and met once more after
a return to the place in front of it. -/
theorem answers_from_fixed_items_returning :
    let decoder : Decoder :=
      ⟨.ofFunction fun opcode => if opcode = ⟨0x20⟩ then .prefixed .one else .empty, .standard⟩
    let script : Bytes := [0x40, 0x20, 9, 1]
    let fault : Fault := .truncatedOperand 3 9 1
    let step : List WalkCommand := [WalkCommand.next]
    let between : List WalkCommand := [.next, .rest]
    (answers decoder script (step ++ [WalkCommand.next])).getLast? =
      some (.next (some (.rejected fault)), 1) ∧
    answers decoder script (step ++ [WalkCommand.next] ++ List.replicate 2 WalkCommand.next) =
      answers decoder script (step ++ [WalkCommand.next]) ++ List.replicate 2 (.next none, 1) ∧
    .save ∉ between ∧
    answers decoder script (step ++ WalkCommand.detour between ++ step) =
      answers decoder script (step ++ WalkCommand.detour between) ++
        (answers decoder script (step ++ [WalkCommand.save] ++ step)).drop 2 := by
  intro decoder script fault step between
  obtain ⟨items, -, stopped, resumed⟩ := answers_from_fixed_items decoder script
  have push : decoder.table.lookup ⟨0x20⟩ = .prefixed .one := by simp [decoder]
  have plain : decoder.table.lookup ⟨0x40⟩ = .fixed 0 := by simp [decoder, Encoding.empty]
  have passed : decoder.takeInstruction 0 script = .ok ⟨⟨0x40⟩, [], .fixed 0⟩ := by
    rw [Decoder.takeInstruction_fixed plain]
    rfl
  have refused : decoder.takeInstruction 1 (0x20 :: ([9] ++ [1])) = .error fault := by
    rw [Decoder.takeInstruction_prefixed push rfl]
    rfl
  have walked := (Course.decoded passed (.rejected (List.cons_ne_nil _ _) refused)).walk_eq
  have faulted : (answers decoder script (step ++ [WalkCommand.next])).getLast? =
      some (.next (some (.rejected fault)), 1) := by
    rw [items, walked]
    rfl
  have unsaved : .save ∉ between := by decide
  exact ⟨faulted, stopped step fault 1 faulted 2, unsaved, resumed step between step unsaved⟩

end Bookmark

end Bytecode
