import Bytecode.Proofs.Walk.Places
import Mathlib.Data.List.Forall2

/-! # Traces of rejections

A walk under way reports the faults that it delivers and nothing else. A fault comes with the
offset at which it is delivered, and its event has the offset, the byte found there and the
text of the fault (`Event.Traces`). One command is answered with such events for the faults in
its answer (`Bookmark.Along.traced_perform`), and so is any sequence of commands, also where a
fault is met again after a return (`Bookmark.rejections_traced`).
-/

namespace Bytecode

/-- **The trace of a fault.** It is an event of the lowest level with the position, the byte of
the script at the position, or none behind its end, and the text of the fault. -/
structure Event.Traces (script : Bytes) (position : Nat) (fault : Fault) (event : Event) :
    Prop where
  level_eq : event.level = .trace
  fields_eq : ∃ opcode, event.fields =
      [("message", .text "rejected instruction"), ("ip", .number position),
        ("opcode", .text opcode), ("error", .text fault.message)] ∧
    (opcode = "None" ↔ script.length ≤ position) ∧
    ∀ byte : UInt8, script[position]? = some byte →
      opcode = "Some(" ++ toString byte.toNat ++ ")"

theorem Event.traces_instructionRejected (script : Bytes) (position : Nat) (fault : Fault) :
    (instructionRejected position ((script.drop position).head?.map Opcode.mk) fault).Traces
      script position fault := by
  rw [List.head?_drop]
  refine ⟨rfl, _, rfl, ?_, fun byte found => ?_⟩
  · cases found : script[position]? with
    | none => exact iff_of_true rfl (List.getElem?_eq_none_iff.mp found)
    | some byte =>
        obtain ⟨inside, -⟩ := List.getElem?_eq_some_iff.mp found
        refine iff_of_false (fun same => ?_) (Nat.not_le.mpr inside)
        have first := congrArg (·.toList.head?) same
        simp at first
  · rw [found]
    rfl

namespace Decoder

variable {decoder : Decoder} {script : Bytes} {position : Nat}

theorem events_decodeLogged_of_ok {instruction : Instruction}
    (decoded : decoder.decode script position = .ok instruction) :
    (decoder.decodeLogged script position).events = [] :=
  congrArg (rejectionEvents position (script.drop position)) decoded

theorem traces_decodeLogged_of_error {fault : Fault}
    (refused : decoder.decode script position = .error fault) :
    ∃ event, (decoder.decodeLogged script position).events = [event] ∧
      event.Traces script position fault :=
  ⟨_, congrArg (rejectionEvents position (script.drop position)) refused,
    Event.traces_instructionRejected script position fault⟩

end Decoder

/-- A rejection inside a script, the position and the fault, and its trace. -/
def Traced (script : Bytes) (met : Nat × Fault) (event : Event) : Prop :=
  met.1 < script.length ∧ event.Traces script met.1 met.2

namespace Item

/-- The fault of an item that has one. -/
def fault? : Item → Option Fault
  | .decoded _ _ => none
  | .rejected fault => some fault

/-- The faults among items, each with the position of the walk behind the items. A fault is the
last item that is delivered, and the walk stays where it is met. -/
def rejections (position : Nat) (items : List Item) : List (Nat × Fault) :=
  (items.filterMap fault?).map fun fault => (position, fault)

theorem rejections_eq_nil {items : List Item} (accepted : ∀ fault, .rejected fault ∉ items)
    (position : Nat) : rejections position items = [] := by
  rw [rejections, List.map_eq_nil_iff, List.filterMap_eq_nil_iff]
  intro item member
  cases item with
  | decoded position instruction => rfl
  | rejected fault => exact absurd member (accepted fault)

end Item

namespace WalkAnswer

/-- The items delivered with an answer. -/
def items : WalkAnswer → List Item
  | .next item => item.toList
  | .rest items => items
  | .saved | .restored => []

/-- The faults delivered with answers, in order, each with the position after its answer. -/
def rejections (answers : List (WalkAnswer × Nat)) : List (Nat × Fault) :=
  answers.flatMap fun (answer, position) => Item.rejections position answer.items

end WalkAnswer

namespace Cursor

/-- Nothing is drained behind a fault. -/
theorem eq_nil_of_drain_eq {cursor : Cursor} {earlier later : List Item} {fault : Fault}
    (drained : cursor.drain.1.value = earlier ++ .rejected fault :: later) : later = [] := by
  induction cursor using stepInduction generalizing earlier with
  | stopped cursor step =>
      rw [drain_of_next?_eq_none step] at drained
      cases (List.append_eq_nil_iff.mp drained.symm).2
  | stepped cursor item behind step ih =>
      rw [drain_of_next?_eq_some step] at drained
      cases earlier with
      | cons first others => exact ih (List.cons.inj drained).2
      | nil =>
          obtain ⟨met, rest⟩ := List.cons.inj drained
          obtain ⟨-, -, ⟨instruction, -, rfl, -⟩ | ⟨fault, -, -, rfl⟩⟩ := next?_cases step
          · cases met
          · rw [drain_failed] at rest
            exact rest.symm

/-- A cursor that goes along a script: what is ahead is the script from the position on. -/
def Along (cursor : Cursor) (script : Bytes) : Prop :=
  cursor.ahead = script.drop cursor.position

namespace Along

variable {cursor : Cursor} {script : Bytes}

theorem step (along : cursor.Along script) {later : Cursor} {item : Logged Item}
    (step : cursor.next? = some (item, later)) : later.Along script := by
  obtain ⟨-, -, ⟨instruction, -, -, rfl⟩ | ⟨fault, -, -, rfl⟩⟩ := next?_cases step
  · change cursor.ahead.drop instruction.size = script.drop (cursor.position + instruction.size)
    rw [along, List.drop_drop]
  · exact along

theorem drained (along : cursor.Along script) : cursor.drain.2.Along script := by
  induction cursor using stepInduction with
  | stopped cursor step => rwa [drain_of_next?_eq_none step]
  | stepped cursor item later step ih =>
      rw [drain_of_next?_eq_some step]
      exact ih (along.step step)

/-- A step that goes past an instruction is silent, one that meets a fault traces it. -/
theorem traced_step (along : cursor.Along script) {later : Cursor} {item : Logged Item}
    (step : cursor.next? = some (item, later)) :
    List.Forall₂ (Traced script) (Item.rejections later.position [item.value]) item.events := by
  obtain ⟨-, nonempty, ⟨instruction, -, rfl, rfl⟩ | ⟨fault, -, rfl, rfl⟩⟩ := next?_cases step
  · exact .nil
  · refine .cons ⟨?_, ?_⟩ .nil
    · rw [along] at nonempty
      exact List.length_lt_of_drop_ne_nil nonempty
    · rw [along]
      exact Event.traces_instructionRejected script cursor.position fault

theorem traced_drain (along : cursor.Along script) :
    List.Forall₂ (Traced script) (Item.rejections cursor.drain.2.position cursor.drain.1.value)
      cursor.drain.1.events := by
  induction cursor using stepInduction with
  | stopped cursor step =>
      rw [drain_of_next?_eq_none step]
      exact .nil
  | stepped cursor item later step ih =>
      have first := along.traced_step step
      have others := ih (along.step step)
      rw [drain_of_next?_eq_some step]
      obtain ⟨-, -, ⟨instruction, -, rfl, rfl⟩ | ⟨fault, -, rfl, rfl⟩⟩ := next?_cases step
      · exact others
      -- Nothing is drained behind a fault, so the cursor stays where it was met.
      · rw [drain_failed]
        exact first

end Along

end Cursor

namespace Bookmark

/-- Both cursors of a bookmark go along one script. -/
structure Along (bookmark : Bookmark) (script : Bytes) : Prop where
  cursor : bookmark.cursor.Along script
  kept : bookmark.kept.Along script

theorem along_start (decoder : Decoder) (script : Bytes) : (start decoder script).Along script :=
  ⟨rfl, rfl⟩

namespace Along

variable {bookmark : Bookmark} {script : Bytes}

theorem perform (along : bookmark.Along script) (command : WalkCommand) :
    (bookmark.perform command).2.Along script := by
  cases command with
  | next =>
      simp only [Bookmark.perform]
      cases step : bookmark.cursor.next? with
      | none => exact along
      | some found => exact ⟨along.cursor.step step, along.kept⟩
  | rest => exact ⟨along.cursor.drained, along.kept⟩
  | save => exact ⟨along.cursor, along.cursor⟩
  | restore => exact ⟨along.kept, along.kept⟩

/-- **The events of a command are the traces of the faults in its answer.** -/
theorem traced_perform (along : bookmark.Along script) (command : WalkCommand) :
    List.Forall₂ (Traced script)
      (Item.rejections (bookmark.perform command).2.cursor.position
        (bookmark.perform command).1.value.items)
      (bookmark.perform command).1.events := by
  cases command with
  | next =>
      simp only [Bookmark.perform]
      cases step : bookmark.cursor.next? with
      | none => exact .nil
      | some found => exact along.cursor.traced_step step
  | rest => exact along.cursor.traced_drain
  | save => exact .nil
  | restore => exact .nil

theorem traced_performAll (along : bookmark.Along script) (commands : List WalkCommand) :
    List.Forall₂ (Traced script)
      (WalkAnswer.rejections (bookmark.performAll commands).value)
      (bookmark.performAll commands).events := by
  induction commands generalizing bookmark with
  | nil => exact .nil
  | cons command rest ih =>
      exact List.rel_append (along.traced_perform command) (ih (along.perform command))

theorem after (along : bookmark.Along script) (commands : List WalkCommand) :
    (bookmark.after commands).Along script := by
  induction commands generalizing bookmark with
  | nil => exact along
  | cons command rest ih => exact ih (along.perform command)

end Along

/-- A fault is the last item of its answer. -/
theorem eq_nil_of_items_perform {bookmark : Bookmark} {command : WalkCommand}
    {earlier later : List Item} {fault : Fault}
    (delivered : (bookmark.perform command).1.value.items =
      earlier ++ .rejected fault :: later) : later = [] := by
  cases command with
  | next =>
      have counted := congrArg List.length delivered
      have single : (bookmark.perform .next).1.value.items.length ≤ 1 := by
        simp only [perform]
        cases bookmark.cursor.next? with
        | none => exact Nat.zero_le 1
        | some found => exact Nat.le_refl 1
      rw [List.length_append, List.length_cons] at counted
      exact List.length_eq_zero_iff.mp (by omega)
  | rest => exact Cursor.eq_nil_of_drain_eq delivered
  | save => cases (List.append_eq_nil_iff.mp delivered.symm).2
  | restore => cases (List.append_eq_nil_iff.mp delivered.symm).2

theorem eq_nil_of_mem_performAll {bookmark : Bookmark} {commands : List WalkCommand}
    {entry : WalkAnswer × Nat} (member : entry ∈ (bookmark.performAll commands).value)
    {earlier later : List Item} {fault : Fault}
    (delivered : entry.1.items = earlier ++ .rejected fault :: later) : later = [] := by
  induction commands generalizing bookmark with
  | nil => cases member
  | cons command rest ih =>
      rcases List.mem_cons.mp member with rfl | behind
      · exact eq_nil_of_items_perform delivered
      · exact ih behind

/-- What commands from the start of a walk report. -/
def reports (decoder : Decoder) (script : Bytes) (commands : List WalkCommand) : List Event :=
  ((start decoder script).performAll commands).events

@[simp] theorem events_performAll_nil (bookmark : Bookmark) :
    (bookmark.performAll []).events = [] := rfl

@[simp] theorem events_performAll_cons (bookmark : Bookmark) (command : WalkCommand)
    (rest : List WalkCommand) :
    (bookmark.performAll (command :: rest)).events =
      (bookmark.perform command).1.events ++
        ((bookmark.perform command).2.performAll rest).events := rfl

theorem events_performAll_append {bookmark : Bookmark} (first second : List WalkCommand) :
    (bookmark.performAll (first ++ second)).events =
      (bookmark.performAll first).events ++ ((bookmark.after first).performAll second).events := by
  induction first generalizing bookmark with
  | nil => rfl
  | cons command rest ih =>
      rw [List.cons_append, events_performAll_cons, events_performAll_cons, ih, after_cons,
        List.append_assoc]

variable {decoder : Decoder} {script : Bytes}

theorem reports_append (first second : List WalkCommand) :
    reports decoder script (first ++ second) =
      reports decoder script first ++
        (((start decoder script).after first).performAll second).events :=
  events_performAll_append first second

/-- A command that delivers no fault reports nothing. -/
theorem reports_of_accepted {commands : List WalkCommand} {command : WalkCommand}
    {answer : WalkAnswer} {position : Nat}
    (answered : (answers decoder script (commands ++ [command])).getLast? =
      some (answer, position))
    (accepted : ∀ fault, .rejected fault ∉ answer.items) :
    reports decoder script (commands ++ [command]) = reports decoder script commands := by
  rw [answers_append, value_performAll_cons, value_performAll_nil, List.getLast?_concat,
    Option.some.injEq, Prod.mk.injEq] at answered
  obtain ⟨rfl, -⟩ := answered
  have traced := ((along_start decoder script).after commands).traced_perform command
  rw [Item.rejections_eq_nil accepted, List.forall₂_nil_left_iff] at traced
  rw [reports_append, events_performAll_cons, events_performAll_nil, traced, List.append_nil,
    List.append_nil]

/-- After a return, the same is reported as if nothing had been done since the place was kept. -/
theorem reports_detour (commands : List WalkCommand) {between : List WalkCommand}
    (unsaved : .save ∉ between) (further : List WalkCommand) :
    reports decoder script (commands ++ WalkCommand.detour between ++ further) =
      reports decoder script (commands ++ WalkCommand.detour between) ++
        (reports decoder script (commands ++ [WalkCommand.save] ++ further)).drop
          (reports decoder script commands).length := by
  have keeping : reports decoder script (commands ++ [WalkCommand.save]) =
      reports decoder script commands := by
    rw [reports_append]
    exact List.append_nil _
  rw [reports_append, reports_append (commands ++ [WalkCommand.save]), keeping,
    after_append_detour commands unsaved, List.drop_left]

/-- **Every delivered fault is traced once, and nothing else is.** The events of a walk under
way are the traces of the faults among its answers, in the order in which they are delivered,
each at the offset of that moment; for a fault is the last item of its answer. So a command
that delivers no fault is silent, be its answer an instruction, the end, or that a place was
kept or returned to. After a return the same is reported as the first time, so a fault that is
met again is traced again. Decoding at any position is silent as well, or gives the one trace
of its fault. -/
theorem rejections_traced (decoder : Decoder) (script : Bytes) :
    (∀ commands, List.Forall₂ (Traced script)
      (WalkAnswer.rejections (answers decoder script commands))
      (reports decoder script commands)) ∧
    (∀ commands, ∀ entry ∈ answers decoder script commands, ∀ earlier fault later,
      entry.1.items = earlier ++ .rejected fault :: later → later = []) ∧
    (∀ commands command answer position,
      (answers decoder script (commands ++ [command])).getLast? = some (answer, position) →
      (∀ fault, .rejected fault ∉ answer.items) →
      reports decoder script (commands ++ [command]) = reports decoder script commands) ∧
    (∀ commands between further, .save ∉ between →
      reports decoder script (commands ++ WalkCommand.detour between ++ further) =
        reports decoder script (commands ++ WalkCommand.detour between) ++
          (reports decoder script (commands ++ [WalkCommand.save] ++ further)).drop
            (reports decoder script commands).length) ∧
    ∀ position,
      (∀ instruction, decoder.decode script position = .ok instruction →
        (decoder.decodeLogged script position).events = []) ∧
      ∀ fault, decoder.decode script position = .error fault →
        ∃ event, (decoder.decodeLogged script position).events = [event] ∧
          event.Traces script position fault := by
  refine ⟨(along_start decoder script).traced_performAll, ?_, ?_, ?_,
    fun position => ⟨?_, ?_⟩⟩
  · intro commands entry member earlier fault later delivered
    exact eq_nil_of_mem_performAll member delivered
  · intro commands command answer position answered accepted
    exact reports_of_accepted answered accepted
  · intro commands between further unsaved
    exact reports_detour commands unsaved further
  · intro instruction decoded
    exact Decoder.events_decodeLogged_of_ok decoded
  · intro fault refused
    exact Decoder.traces_decodeLogged_of_error refused

/-- A fault behind a first instruction, met again after a return to the place in front of it. -/
theorem rejections_traced_again :
    let decoder : Decoder := ⟨.ofFunction fun _ => .fixed 1, .standard⟩
    let script : Bytes := [0x40, 7, 0x41]
    let fault : Fault := .truncatedOperand 3 1 0
    let step : List WalkCommand := [.next]
    let between : List WalkCommand := [.next, .rest]
    WalkAnswer.rejections (answers decoder script (step ++ WalkCommand.detour between ++ step)) =
      [(2, fault), (2, fault)] ∧
    List.Forall₂ (Traced script) [(2, fault), (2, fault)]
      (reports decoder script (step ++ WalkCommand.detour between ++ step)) ∧
    reports decoder script ([] ++ step) = reports decoder script [] ∧
    reports decoder script (step ++ WalkCommand.detour between ++ step) =
      reports decoder script (step ++ WalkCommand.detour between) ++
        (reports decoder script (step ++ [WalkCommand.save] ++ step)).drop
          (reports decoder script step).length ∧
    (decoder.decodeLogged script 0).events = [] ∧
    ∃ event, (decoder.decodeLogged script 3).events = [event] ∧
      event.Traces script 3 (.outOfBounds 3 1 0) := by
  intro decoder script fault step between
  obtain ⟨traced, -, silent, returned, direct⟩ := rejections_traced decoder script
  have sized (opcode : Opcode) : decoder.table.lookup opcode = .fixed 1 := by simp [decoder]
  have passed : decoder.takeInstruction 0 script = .ok ⟨⟨0x40⟩, [7], .fixed 1⟩ := by
    rw [Decoder.takeInstruction_fixed (sized _)]
    rfl
  have refused : decoder.takeInstruction 2 [0x41] = .error fault := by
    rw [Decoder.takeInstruction_fixed (sized _)]
    rfl
  have walked := (Course.decoded passed (.rejected (List.cons_ne_nil _ _) refused)).walk_eq
  have met : WalkAnswer.rejections
      (answers decoder script (step ++ WalkCommand.detour between ++ step)) =
        [(2, fault), (2, fault)] := by
    rw [answers_eq_performAll, walked]
    rfl
  have first : (answers decoder script ([] ++ step)).getLast? =
      some (.next (some (.decoded 0 ⟨⟨0x40⟩, [7], .fixed 1⟩)), 2) := by
    rw [answers_eq_performAll, walked]
    rfl
  refine ⟨met, met ▸ traced _, silent [] .next _ _ first ?_,
    returned step between step (by decide), (direct 0).1 _ passed, (direct 3).2 _ rfl⟩
  intro fault member
  cases List.mem_singleton.mp member

end Bookmark

end Bytecode
