import Bytecode.Proofs.Layout
import Bytecode.Walk

/-! # The course of a walk

What a walk yields is described twice: as the items that a cursor yields step by
step (`Cursor.Yields`), and as a course that the bytes and the position alone
determine (`Course`). Draining a cursor takes steps until none is left
(`Cursor.yields_drain`), and its items are those of the course
(`Cursor.course_drain`), of which there is only one (`Course.unique`).
-/

namespace Bytecode

namespace Cursor

/-- All that a step can do: go past an instruction, or stay at a fault for good. -/
theorem next?_cases {cursor later : Cursor} {item : Logged Item}
    (step : cursor.next? = some (item, later)) :
    cursor.failed = false ∧ cursor.ahead ≠ [] ∧
      ((∃ instruction,
          cursor.decoder.takeInstruction cursor.position cursor.ahead = .ok instruction ∧
          item = ⟨.decoded cursor.position instruction, []⟩ ∧
          later = { cursor with
            position := cursor.position + instruction.size
            ahead := cursor.ahead.drop instruction.size }) ∨
        (∃ fault,
          cursor.decoder.takeInstruction cursor.position cursor.ahead = .error fault ∧
          item = ⟨.rejected fault,
            [.instructionRejected cursor.position (cursor.ahead.head?.map Opcode.mk) fault]⟩ ∧
          later = { cursor with failed := true })) := by
  unfold next? at step
  split at step
  · cases step
  · next going =>
      simp only [Bool.or_eq_true, List.isEmpty_iff, not_or, Bool.not_eq_true] at going
      refine ⟨going.1, going.2, ?_⟩
      simp only at step
      split at step
      · next instruction taken =>
          obtain ⟨rfl, rfl⟩ := Prod.mk.inj (Option.some.inj step)
          exact .inl ⟨instruction, taken, by rw [taken]; rfl, rfl⟩
      · next fault taken =>
          obtain ⟨rfl, rfl⟩ := Prod.mk.inj (Option.some.inj step)
          exact .inr ⟨fault, taken, by rw [taken]; rfl, rfl⟩

/-- Induction along the steps that a cursor still has. -/
@[elab_as_elim]
theorem stepInduction {motive : Cursor → Prop}
    (stopped : ∀ cursor : Cursor, cursor.next? = none → motive cursor)
    (stepped : ∀ (cursor : Cursor) (item : Logged Item) (later : Cursor),
      cursor.next? = some (item, later) → motive later → motive cursor)
    (cursor : Cursor) : motive cursor :=
  match step : cursor.next? with
  | none => stopped cursor step
  | some (item, later) => stepped cursor item later step (stepInduction stopped stepped later)
termination_by cursor.remaining
decreasing_by exact remaining_lt_of_next? step

theorem drainOnto_of_next?_eq_none {cursor : Cursor} (step : cursor.next? = none)
    (gathered : List Item) (events : List Event) :
    cursor.drainOnto gathered events = (⟨gathered.reverse, events⟩, cursor) := by
  rw [drainOnto]
  split
  · rfl
  · next item later other =>
      rw [step] at other
      cases other

theorem drainOnto_of_next?_eq_some {cursor later : Cursor} {item : Logged Item}
    (step : cursor.next? = some (item, later)) (gathered : List Item) (events : List Event) :
    cursor.drainOnto gathered events =
      later.drainOnto (item.value :: gathered) (events ++ item.events) := by
  rw [drainOnto]
  split
  · next other =>
      rw [step] at other
      cases other
  · next other =>
      rw [step] at other
      cases other
      rfl

/-- What was gathered before stays in front of what is drained. -/
theorem drainOnto_eq (cursor : Cursor) : ∀ (gathered : List Item) (events : List Event),
    cursor.drainOnto gathered events =
      (⟨gathered.reverse ++ cursor.drain.1.value, events ++ cursor.drain.1.events⟩,
        cursor.drain.2) := by
  induction cursor using stepInduction with
  | stopped cursor step =>
      intro gathered events
      rw [drain, drainOnto_of_next?_eq_none step, drainOnto_of_next?_eq_none step]
      simp only [List.reverse_nil, List.append_nil]
  | stepped cursor item later step ih =>
      intro gathered events
      -- Both sides take the same step; the accumulators differ only in what was gathered before.
      rw [drain, drainOnto_of_next?_eq_some step, drainOnto_of_next?_eq_some step, ih,
        ih [item.value]]
      simp only [List.reverse_cons, List.reverse_nil, List.nil_append, List.append_assoc,
        List.cons_append]

theorem drain_of_next?_eq_none {cursor : Cursor} (step : cursor.next? = none) :
    cursor.drain = (⟨[], []⟩, cursor) :=
  drainOnto_of_next?_eq_none step [] []

/-- A cursor that met a fault has no step left. -/
theorem drain_failed (cursor : Cursor) :
    drain { cursor with failed := true } = (⟨[], []⟩, { cursor with failed := true }) :=
  drain_of_next?_eq_none ((next?_eq_none_iff _).mpr (.inl rfl))

theorem drain_of_next?_eq_some {cursor later : Cursor} {item : Logged Item}
    (step : cursor.next? = some (item, later)) :
    cursor.drain =
      (⟨item.value :: later.drain.1.value, item.events ++ later.drain.1.events⟩,
        later.drain.2) := by
  rw [drain, drainOnto_of_next?_eq_some step, drainOnto_eq]
  rfl

/-- A cursor yields items step by step and comes to stand after them. -/
inductive Yields : Cursor → List Item → Cursor → Prop where
  | stay (cursor : Cursor) : Yields cursor [] cursor
  | step {cursor later last : Cursor} {item : Logged Item} {items : List Item} :
      cursor.next? = some (item, later) →
      Yields later items last →
      Yields cursor (item.value :: items) last

/-- **Draining is stepping to the end.** A drained cursor yielded its items one by
one, and no step is left. -/
theorem yields_drain (cursor : Cursor) :
    cursor.Yields cursor.drain.1.value cursor.drain.2 ∧ cursor.drain.2.next? = none := by
  induction cursor using stepInduction with
  | stopped cursor step =>
      rw [drain_of_next?_eq_none step]
      exact ⟨.stay cursor, step⟩
  | stepped cursor item later step ih =>
      rw [drain_of_next?_eq_some step]
      exact ⟨.step step ih.1, ih.2⟩

end Cursor

/-- **The course of a walk.** Bytes that stand at a position are passed instruction
by instruction, up to their end or to the first fault; the items come with the
position where the walk stops. -/
inductive Course (decoder : Decoder) : Nat → Bytes → List Item → Nat → Prop where
  | ended (position : Nat) : Course decoder position [] [] position
  | rejected {position : Nat} {bytes : Bytes} {fault : Fault} :
      bytes ≠ [] →
      decoder.takeInstruction position bytes = .error fault →
      Course decoder position bytes [.rejected fault] position
  | decoded {position : Nat} {bytes : Bytes} {instruction : Instruction} {items : List Item}
      {stop : Nat} :
      decoder.takeInstruction position bytes = .ok instruction →
      Course decoder (position + instruction.size) (bytes.drop instruction.size) items stop →
      Course decoder position bytes (.decoded position instruction :: items) stop

namespace Course

variable {decoder : Decoder} {position : Nat} {bytes : Bytes}

/-- The bytes and their position determine the course. -/
theorem unique {items others : List Item} {stop halt : Nat}
    (first : Course decoder position bytes items stop)
    (second : Course decoder position bytes others halt) : items = others ∧ stop = halt := by
  induction first generalizing others halt with
  | ended position =>
      cases second with
      | ended => exact ⟨rfl, rfl⟩
      | rejected nonempty => exact absurd rfl nonempty
      | decoded taken => simp [Decoder.takeInstruction] at taken
  | rejected nonempty refused =>
      cases second with
      | ended => exact absurd rfl nonempty
      | rejected _ other =>
          cases refused.symm.trans other
          exact ⟨rfl, rfl⟩
      | decoded other => cases refused.symm.trans other
  | decoded taken _ ih =>
      cases second with
      | ended => simp [Decoder.takeInstruction] at taken
      | rejected _ other => cases taken.symm.trans other
      | decoded other later =>
          cases taken.symm.trans other
          obtain ⟨rfl, rfl⟩ := ih later
          exact ⟨rfl, rfl⟩

end Course

/-- What is drained from a cursor that met no fault is the course of the bytes
ahead of it. -/
theorem Cursor.course_drain (cursor : Cursor) : cursor.failed = false →
    Course cursor.decoder cursor.position cursor.ahead cursor.drain.1.value
      cursor.drain.2.position := by
  induction cursor using Cursor.stepInduction with
  | stopped cursor step =>
      intro running
      have ahead : cursor.ahead = [] := by
        simpa [running] using cursor.next?_eq_none_iff.mp step
      rw [drain_of_next?_eq_none step, ahead]
      exact .ended cursor.position
  | stepped cursor item later step ih =>
      intro running
      rw [drain_of_next?_eq_some step]
      obtain ⟨-, nonempty, ⟨instruction, taken, rfl, rfl⟩ | ⟨fault, refused, rfl, rfl⟩⟩ :=
        next?_cases step
      · exact .decoded taken (ih running)
      -- Nothing is drained behind a fault, so the fault is the last item.
      · rw [drain_failed]
        exact .rejected nonempty refused

/-- A walk over a script is the course of the script. -/
theorem Decoder.course_walk (decoder : Decoder) (script : Bytes) :
    Course decoder 0 script (decoder.walk script).value.items (decoder.walk script).value.stop :=
  (Cursor.start decoder script).course_drain rfl

theorem Course.walk_eq {decoder : Decoder} {script : Bytes} {items : List Item} {stop : Nat}
    (course : Course decoder 0 script items stop) :
    (decoder.walk script).value = ⟨items, stop⟩ := by
  obtain ⟨rfl, rfl⟩ := course.unique (decoder.course_walk script)
  rfl

end Bytecode
