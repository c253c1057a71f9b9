import Bytecode.Proofs.Session.Reports
import Bytecode.Proofs.Walk.Agreement

/-! # Installing a descriptor set

An installation is refused if its set is malformed, and accepted if no table is in force.
Otherwise it is accepted exactly if nobody could tell the two tables apart by decoding
(`Decoder.decode_eq_all_iff`). Only the second case changes the session.
-/

namespace Bytecode

/-- Tables under which the same is decoded everywhere, whatever the limits, are the same. -/
theorem Decoder.decode_eq_all_iff {first second : Table} :
    (∀ limits script position,
      decode ⟨first, limits⟩ script position = decode ⟨second, limits⟩ script position) ↔
      first = second := by
  constructor
  · intro alike
    apply Table.ext
    intro opcode
    have found : [opcode.byte][0]? = some opcode.byte := rfl
    exact (decode_eq_iff found).mp (alike .standard [opcode.byte] 0)
  · rintro rfl limits script position
    rfl

/-- Whether the library gave up instead of answering. -/
def Answer.isAborted : Answer → Bool
  | .aborted _ => true
  | .installed _ | .table _ | .encoding _ | .decoded _ | .walked _ | .limits _
  | .environmentLimits _ | .environmentSet => false

namespace Session

/-- **What an installation does.** A malformed set ends it and leaves the session as it
was. A set that builds a table is put in force if no table is. If one is, the set is
accepted where its table decodes every script alike, and is a conflict where a script
tells the two apart; the session stays as it was in both cases. -/
inductive Installs (session : Session) (descriptors : List Descriptor) :
    Logged (Answer × Session) → Prop where
  | malformed {descriptor : Descriptor} :
      descriptors.find? Descriptor.isMalformed = some descriptor →
      session.Installs descriptors
        ⟨(.aborted (.malformedSet
            (.invalidMetadata descriptor.opcode descriptor.prefixWidth)), session),
          Descriptor.replacements descriptors ++
            [.setRejected (.invalidMetadata descriptor.opcode descriptor.prefixWidth)]⟩
  | first {built : Table} :
      (Table.build descriptors).value = .ok built →
      session.table = none →
      session.Installs descriptors
        ⟨(.installed built, { session with table := some built }),
          Descriptor.replacements descriptors ++
            [.tableBuilt descriptors.length built.prefixedEntries]⟩
  | alike {built current : Table} :
      (Table.build descriptors).value = .ok built →
      session.table = some current →
      (∀ limits script position, Decoder.decode ⟨current, limits⟩ script position =
        Decoder.decode ⟨built, limits⟩ script position) →
      session.Installs descriptors
        ⟨(.installed current, session),
          Descriptor.replacements descriptors ++
            [.tableBuilt descriptors.length built.prefixedEntries]⟩
  | conflict {built current : Table} {limits : Limits} {script : Bytes} {position : Nat} :
      (Table.build descriptors).value = .ok built →
      session.table = some current →
      Decoder.decode ⟨current, limits⟩ script position ≠
        Decoder.decode ⟨built, limits⟩ script position →
      session.Installs descriptors
        ⟨(.aborted .tableConflict, session),
          Descriptor.replacements descriptors ++
            [.tableBuilt descriptors.length built.prefixedEntries, .installConflict]⟩

variable {session : Session} {descriptors : List Descriptor}

/-- What a case describes is what is done. -/
theorem Installs.install_eq {outcome : Logged (Answer × Session)}
    (installs : session.Installs descriptors outcome) : session.install descriptors = outcome := by
  have answered := session.value_install descriptors
  have reported := session.events_install descriptors
  rw [Table.events_build] at reported
  simp only [Session.outcome] at answered
  cases installs with
  | @malformed descriptor first =>
      have refused := Table.value_build_eq_error_iff.mpr ⟨descriptor, first, rfl⟩
      rw [refused] at answered reported
      rw [List.append_nil] at reported
      exact Logged.ext answered reported
  | first builds unsettled =>
      rw [builds, unsettled] at answered reported
      rw [List.append_nil] at reported
      exact Logged.ext answered reported
  | alike builds settled same =>
      rw [builds, settled] at answered reported
      simp only [Decoder.decode_eq_all_iff.mp same, ↓reduceIte] at answered reported
      rw [List.append_nil] at reported
      rw [Decoder.decode_eq_all_iff.mp same]
      exact Logged.ext answered reported
  | @conflict built current limits script position builds settled apart =>
      have different : current ≠ built := by
        rintro rfl
        exact apart rfl
      rw [builds, settled] at answered reported
      simp only [different, ↓reduceIte] at answered reported
      rw [List.append_assoc] at reported
      exact Logged.ext answered reported

/-- Every installation is one of the four cases. -/
theorem exists_installs (session : Session) (descriptors : List Descriptor) :
    ∃ outcome, session.Installs descriptors outcome := by
  cases builds : (Table.build descriptors).value with
  | error fault =>
      obtain ⟨descriptor, first, -⟩ := Table.value_build_eq_error_iff.mp builds
      exact ⟨_, .malformed first⟩
  | ok built =>
      cases settled : session.table with
      | none => exact ⟨_, .first builds settled⟩
      | some current =>
          by_cases same : current = built
          · exact ⟨_, .alike builds settled (Decoder.decode_eq_all_iff.mpr same)⟩
          · have apart := mt Decoder.decode_eq_all_iff.mp same
            simp only [Classical.not_forall] at apart
            obtain ⟨limits, script, position, apart⟩ := apart
            exact ⟨_, .conflict builds settled apart⟩

/-- The text with which an installation gives up: that of the first malformed descriptor, if
there is one. -/
theorem Installs.message_eq {outcome : Logged (Answer × Session)}
    (installs : session.Installs descriptors outcome) {cause : Abort}
    (aborted : outcome.value.1 = .aborted cause) :
    cause.message =
      match descriptors.find? Descriptor.isMalformed with
      | some descriptor => "invalid operand descriptor set: " ++
          ("Metadados inválidos para " ++ descriptor.opcode.text ++ ": largura de prefixo " ++
            toString descriptor.prefixWidth.toNat)
      | none => "global encoding table already initialised with different descriptors" := by
  cases installs with
  | malformed first =>
      cases aborted
      rw [first]
      rfl
  | first => cases aborted
  | alike => cases aborted
  | conflict builds =>
      cases aborted
      have clean : descriptors.find? Descriptor.isMalformed = none := by
        rw [← Option.not_isSome_iff_eq_none, Option.isSome_iff_exists]
        rintro ⟨descriptor, first⟩
        cases (Table.value_build_eq_error_iff.mpr ⟨descriptor, first, rfl⟩).symm.trans builds
      rw [clean]
      rfl

/-- An error is reported where an installation gives up, and only there. -/
theorem Installs.countP_error {outcome : Logged (Answer × Session)}
    (installs : session.Installs descriptors outcome) :
    outcome.events.countP (·.level = .error) = if outcome.value.1.isAborted then 1 else 0 := by
  have warnings : (Descriptor.replacements descriptors).countP (·.level = .error) = 0 := by
    apply List.countP_eq_zero.mpr
    intro event member
    obtain ⟨opcode, previous, replacement, rfl⟩ :=
      Descriptor.exists_eq_of_mem_replacements member
    exact Bool.false_ne_true
  cases installs with
  | malformed first => rw [List.countP_append, warnings]; rfl
  | first builds unsettled => rw [List.countP_append, warnings]; rfl
  | alike builds settled same => rw [List.countP_append, warnings]; rfl
  | conflict builds settled apart => rw [List.countP_append, warnings]; rfl

/-- **Installations accept what decodes alike and change nothing where they refuse.** The
outcome of an installation, with the session after it and all reports in order, is the one
of the four cases that applies. Where it gives up, the text is that of the first malformed
descriptor or of the conflict, and one error is reported; elsewhere none is. -/
theorem install_accepts_iff_decodes_alike (session : Session) (descriptors : List Descriptor) :
    (∀ outcome, session.answer (.install descriptors) = outcome ↔
      session.Installs descriptors outcome) ∧
    (∀ cause, (session.answer (.install descriptors)).value.1 = .aborted cause →
      cause.message =
        match descriptors.find? Descriptor.isMalformed with
        | some descriptor => "invalid operand descriptor set: " ++
            ("Metadados inválidos para " ++ descriptor.opcode.text ++ ": largura de prefixo " ++
              toString descriptor.prefixWidth.toNat)
        | none => "global encoding table already initialised with different descriptors") ∧
    (session.answer (.install descriptors)).events.countP (·.level = .error) =
      if (session.answer (.install descriptors)).value.1.isAborted then 1 else 0 := by
  obtain ⟨found, installs⟩ := session.exists_installs descriptors
  have answered : session.answer (.install descriptors) = found := installs.install_eq
  refine ⟨?_, ?_, ?_⟩
  · intro outcome
    constructor
    · rintro rfl
      exact answered ▸ installs
    · exact Installs.install_eq
  · intro cause aborted
    rw [answered] at aborted
    exact installs.message_eq aborted
  · rw [answered]
    exact installs.countP_error

end Session

end Bytecode
