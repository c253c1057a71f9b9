import Bytecode.Proofs.Session.WriteOnce
import Bytecode.Proofs.Walk.Course

/-! # Walking a script by oneself

A caller can walk a script without asking for a walk: decode at a position, go on by the
size of the instruction, and stop at the end or at a fault. The first decoding settles the
decoder, so whatever else is asked in between, this is the course that a walk takes
(`Session.course_decodeInTurns`).
-/

namespace Bytecode.Session

/-- **A caller's own walk.** From a position on, ask for the instruction there and go on
behind it, up to the end of the script or the first fault. After the turn of a number the
requests of that number are answered before the next turn. No answer but a decoded one
comes back, so the last case never applies. -/
def decodeInTurns (script : Bytes) (others : Nat → List Request) (session : Session)
    (turn position : Nat) : Walk × Session :=
  if position < script.length then
    match (session.answer (.decode script position)).value with
    | (.decoded (.ok instruction), settled) =>
        let (walk, last) := decodeInTurns script others (settled.after (others turn)) (turn + 1)
          (position + instruction.size)
        (⟨.decoded position instruction :: walk.items, walk.stop⟩, last)
    | (.decoded (.error fault), settled) => (⟨[.rejected fault], position⟩, settled)
    | (_, settled) => (⟨[], position⟩, settled)
  else (⟨[], position⟩, session)
termination_by script.length - position
decreasing_by
  have positive := instruction.size_pos
  omega

variable {script : Bytes} {others : Nat → List Request} {session : Session} {position : Nat}

theorem decodeInTurns_of_length_le (ended : script.length ≤ position) (turn : Nat) :
    decodeInTurns script others session turn position = (⟨[], position⟩, session) := by
  rw [decodeInTurns, if_neg (Nat.not_lt.mpr ended)]

theorem decodeInTurns_of_error {fault : Fault} (inside : position < script.length)
    (refused : session.decoderInForce.decode script position = .error fault) (turn : Nat) :
    decodeInTurns script others session turn position =
      (⟨[.rejected fault], position⟩, session.settleDecoder) := by
  rw [decodeInTurns, if_pos inside, value_answer]
  simp only [outcome, refused]

theorem decodeInTurns_of_ok {instruction : Instruction} (inside : position < script.length)
    (decoded : session.decoderInForce.decode script position = .ok instruction) (turn : Nat) :
    decodeInTurns script others session turn position =
      let rest := decodeInTurns script others (session.settleDecoder.after (others turn)) (turn + 1)
        (position + instruction.size)
      (⟨.decoded position instruction :: rest.1.items, rest.1.stop⟩, rest.2) := by
  rw [decodeInTurns, if_pos inside, value_answer]
  simp only [outcome, decoded]

/-- Induction along the turns that a caller still takes. -/
@[elab_as_elim]
theorem turnInduction (script : Bytes) (others : Nat → List Request)
    {motive : Session → Nat → Nat → Prop}
    (ended : ∀ (session : Session) (turn position : Nat), script.length ≤ position →
      motive session turn position)
    (rejected : ∀ (session : Session) (turn position : Nat) (fault : Fault),
      position < script.length →
      session.decoderInForce.decode script position = .error fault →
      motive session turn position)
    (decoded : ∀ (session : Session) (turn position : Nat) (instruction : Instruction),
      position < script.length →
      session.decoderInForce.decode script position = .ok instruction →
      motive (session.settleDecoder.after (others turn)) (turn + 1)
        (position + instruction.size) →
      motive session turn position)
    (session : Session) (turn position : Nat) : motive session turn position := by
  by_cases inside : position < script.length
  · cases found : session.decoderInForce.decode script position with
    | error fault => exact rejected session turn position fault inside found
    | ok instruction =>
        apply decoded session turn position instruction inside found
        exact turnInduction script others ended rejected decoded _ _ _
  · exact ended session turn position (Nat.not_lt.mp inside)
termination_by script.length - position
decreasing_by
  have positive := instruction.size_pos
  omega

theorem Keeps.decoderInForce_eq {later : Session} (keeps : later.Keeps session.settleDecoder) :
    later.decoderInForce = session.decoderInForce := by
  rw [decoderInForce, tableInForce_of_some (keeps.table_eq _ rfl),
    limitsInForce_of_some (keeps.limits_eq _ rfl), decoderInForce]

/-- The turns take the course of the script under the decoder that the first of them finds
in force. -/
theorem course_decodeInTurns (script : Bytes) (others : Nat → List Request) (session : Session)
    (turn position : Nat) :
    Course session.decoderInForce position (script.drop position)
      (decodeInTurns script others session turn position).1.items
      (decodeInTurns script others session turn position).1.stop := by
  induction session, turn, position using turnInduction script others with
  | ended session turn position ended =>
      rw [decodeInTurns_of_length_le ended, List.drop_eq_nil_of_le ended]
      exact .ended position
  | rejected session turn position fault inside refused =>
      rw [decodeInTurns_of_error inside refused]
      exact .rejected (mt List.drop_eq_nil_iff.mp (Nat.not_le.mpr inside)) refused
  | decoded session turn position instruction inside decoded ih =>
      -- Whatever was asked in between, the next turn finds the same decoder.
      rw [(keeps_after session.settleDecoder (others turn)).decoderInForce_eq,
        ← List.drop_drop] at ih
      rw [decodeInTurns_of_ok inside decoded]
      exact .decoded decoded ih

theorem keeps_decodeInTurns (script : Bytes) (others : Nat → List Request) (session : Session)
    (turn position : Nat) :
    (decodeInTurns script others session turn position).2.Keeps session := by
  induction session, turn, position using turnInduction script others with
  | ended session turn position ended =>
      rw [decodeInTurns_of_length_le ended]
      exact .refl session
  | rejected session turn position fault inside refused =>
      rw [decodeInTurns_of_error inside refused]
      exact session.keeps_settleDecoder
  | decoded session turn position instruction inside decoded ih =>
      rw [decodeInTurns_of_ok inside decoded]
      apply ih.trans
      apply (keeps_after session.settleDecoder (others turn)).trans
      exact session.keeps_settleDecoder

/-- What the first turn settles is still settled after the last one. -/
theorem keeps_settleDecoder_decodeInTurns (inside : position < script.length) (turn : Nat) :
    (decodeInTurns script others session turn position).2.Keeps session.settleDecoder := by
  cases found : session.decoderInForce.decode script position with
  | error fault =>
      rw [decodeInTurns_of_error inside found]
      exact .refl _
  | ok instruction =>
      rw [decodeInTurns_of_ok inside found]
      apply (keeps_decodeInTurns script others _ _ _).trans
      exact keeps_after session.settleDecoder (others turn)

/-- **A walk by oneself is a walk.** A caller who decodes turn by turn from the start gets
what one request for a walk is answered in the same session, whatever else is asked
between the turns. In a script with a first byte the first turn settles a table and limits,
both stay in force to the end, and the walk is that of a decoder with these two. -/
theorem decodeInTurns_eq_walk (session : Session) (script : Bytes)
    (others : Nat → List Request) :
    (session.answer (.walk script)).value.1 =
        .walked (decodeInTurns script others session 0 0).1 ∧
    (script ≠ [] → ∃ table limits,
      (session.answer (.decode script 0)).value.2.table = some table ∧
      (session.answer (.decode script 0)).value.2.limits = some limits ∧
      (decodeInTurns script others session 0 0).2.table = some table ∧
      (decodeInTurns script others session 0 0).2.limits = some limits ∧
      (decodeInTurns script others session 0 0).1 =
        (Decoder.walk ⟨table, limits⟩ script).value) := by
  have walked : (session.decoderInForce.walk script).value =
      (decodeInTurns script others session 0 0).1 :=
    (course_decodeInTurns script others session 0 0).walk_eq
  constructor
  · rw [value_answer]
    exact congrArg Answer.walked walked
  · intro nonempty
    have keeps : (decodeInTurns script others session 0 0).2.Keeps session.settleDecoder :=
      keeps_settleDecoder_decodeInTurns (List.length_pos_iff.mpr nonempty) 0
    refine ⟨session.tableInForce, session.limitsInForce, ?_, ?_, ?_, ?_, walked.symm⟩
    · rw [value_answer]
      rfl
    · rw [value_answer]
      rfl
    · exact keeps.table_eq _ rfl
    · exact keeps.limits_eq _ rfl

end Bytecode.Session
