import Bytecode.Proofs.Session.Outcome
import Bytecode.Proofs.Table.Meaning
import Mathlib.Data.List.Forall2

/-! # The table of a session is written once

The first request of a run that brings a table settles the table
(`Session.table_answerAll`). What is settled stays (`Session.keeps_answerAll`),
and every answer of the run rests on it (`Session.answeredFrom_answerAll`).
-/

namespace Bytecode

/-- **The table that a request brings.** It is in force after the request if none was
before: an installation brings the table of its descriptors if they build one,
every use of the table or the decoder brings the Neo table, and a request about
the environment brings none. -/
def Request.brings? : Request → Option Table
  | .install descriptors => (Table.build descriptors).value.toOption
  | .describe | .lookup _ | .decode _ _ | .walk _ | .limits =>
      (Table.build Neo.descriptors).value.toOption
  | .readEnvironment | .setEnvironment _ => none

/-- An answer that the table in force gives. -/
def Session.TableGives (settled : Session) (answerOf : Table → Answer) (answer : Answer) : Prop :=
  ∃ table, settled.table = some table ∧ answer = answerOf table

/-- An answer that the decoder of the table and the limits in force gives. -/
def Session.DecoderGives (settled : Session) (answerOf : Decoder → Answer) (answer : Answer) :
    Prop :=
  ∃ table limits, settled.table = some table ∧ settled.limits = some limits ∧
    answer = answerOf ⟨table, limits⟩

/-- **Answers that rest on what is settled.** Descriptions, encodings and decoded
instructions are those of the one table in force, under the one limit in force;
an installation is accepted if it brings this very table. -/
def Request.AnsweredFrom (settled : Session) : Request → Answer → Prop
  | .install descriptors =>
      match (Table.build descriptors).value with
      | .error fault => (· = .aborted (.malformedSet fault))
      | .ok built => settled.TableGives fun table =>
          if table = built then .installed table else .aborted .tableConflict
  | .describe => settled.TableGives .table
  | .lookup opcode => settled.TableGives fun table => .encoding (table.lookup opcode)
  | .decode script position =>
      settled.DecoderGives fun decoder => .decoded (decoder.decode script position)
  | .walk script => settled.DecoderGives fun decoder => .walked (decoder.walk script).value
  | .limits => settled.DecoderGives fun decoder => .limits decoder.limits
  | .readEnvironment => fun answer => ∃ limits, answer = .environmentLimits limits
  | .setEnvironment _ => (· = .environmentSet)

/-- None of the Neo descriptors is malformed, so the Neo table is the one that they build. -/
theorem Neo.value_build : (Table.build descriptors).value = .ok loadTable.value := by
  obtain ⟨table, built, -⟩ := Table.exists_settled_build encoding?_isSome
  simp only [loadTable, built, Except.toOption, Option.getD_some]

namespace Session

/-- What was settled earlier is settled in the same way later. -/
structure Keeps (later earlier : Session) : Prop where
  table_eq : ∀ table, earlier.table = some table → later.table = some table
  limits_eq : ∀ limits, earlier.limits = some limits → later.limits = some limits

theorem Keeps.refl (session : Session) : session.Keeps session :=
  ⟨fun _ settled => settled, fun _ settled => settled⟩

theorem Keeps.trans {latest later earlier : Session} (second : latest.Keeps later)
    (first : later.Keeps earlier) : latest.Keeps earlier :=
  ⟨fun table settled => second.table_eq table (first.table_eq table settled),
    fun limits settled => second.limits_eq limits (first.limits_eq limits settled)⟩

theorem tableInForce_of_some {session : Session} {table : Table}
    (settled : session.table = some table) : session.tableInForce = table := by
  rw [tableInForce, settled, Option.getD_some]

theorem limitsInForce_of_some {session : Session} {limits : Limits}
    (settled : session.limits = some limits) : session.limitsInForce = limits := by
  rw [limitsInForce, settled, Option.getD_some]

theorem some_tableInForce (session : Session) :
    some session.tableInForce =
      session.table.or (Table.build Neo.descriptors).value.toOption := by
  have neo : (Table.build Neo.descriptors).value.toOption = some Neo.loadTable.value :=
    congrArg Except.toOption Neo.value_build
  rw [neo, Option.or_some, tableInForce]

theorem keeps_settleTable (session : Session) : session.settleTable.Keeps session := by
  refine ⟨?_, fun _ settled => settled⟩
  intro table settled
  exact congrArg some (tableInForce_of_some settled)

theorem keeps_settleDecoder (session : Session) : session.settleDecoder.Keeps session := by
  constructor
  · intro table settled
    exact congrArg some (tableInForce_of_some settled)
  · intro limits settled
    exact congrArg some (limitsInForce_of_some settled)

/-- **One request writes the table at most once.** The table in force stays; if there
is none, the table that the request brings is put in force. -/
theorem table_outcome (session : Session) (request : Request) :
    (session.outcome request).2.table = session.table.or request.brings? := by
  cases request with
  | install descriptors =>
      simp only [outcome, Request.brings?]
      cases (Table.build descriptors).value with
      | error fault => exact Option.or_none.symm
      | ok built => cases current : session.table <;> simp [current, Except.toOption]
  | describe => exact session.some_tableInForce
  | lookup opcode => exact session.some_tableInForce
  | decode script position => exact session.some_tableInForce
  | walk script => exact session.some_tableInForce
  | limits => exact session.some_tableInForce
  | readEnvironment => exact Option.or_none.symm
  | setEnvironment value => exact Option.or_none.symm

theorem keeps_outcome (session : Session) (request : Request) :
    (session.outcome request).2.Keeps session := by
  cases request with
  | install descriptors =>
      refine ⟨?_, ?_⟩
      · intro table settled
        rw [table_outcome, settled, Option.some_or]
      · intro limits settled
        obtain ⟨table, installed⟩ := session.exists_table_outcome_install descriptors
        rw [installed]
        exact settled
  | describe => exact session.keeps_settleTable
  | lookup opcode => exact session.keeps_settleTable
  | decode script position => exact session.keeps_settleDecoder
  | walk script => exact session.keeps_settleDecoder
  | limits => exact session.keeps_settleDecoder
  | readEnvironment => exact .refl session
  | setEnvironment value => exact ⟨fun _ settled => settled, fun _ settled => settled⟩

/-- An answer rests on what the session has settled with it. -/
theorem answeredFrom_outcome (session : Session) (request : Request) :
    request.AnsweredFrom (session.outcome request).2 (session.outcome request).1 := by
  cases request with
  | install descriptors =>
      simp only [Request.AnsweredFrom, outcome]
      cases (Table.build descriptors).value with
      | error fault => rfl
      | ok built =>
          cases current : session.table with
          | none => exact ⟨built, rfl, (if_pos rfl).symm⟩
          | some table => exact ⟨table, current, rfl⟩
  | describe => exact ⟨session.tableInForce, rfl, rfl⟩
  | lookup opcode => exact ⟨session.tableInForce, rfl, rfl⟩
  | decode script position => exact ⟨_, _, rfl, rfl, rfl⟩
  | walk script => exact ⟨_, _, rfl, rfl, rfl⟩
  | limits => exact ⟨_, _, rfl, rfl, rfl⟩
  | readEnvironment => exact ⟨_, rfl⟩
  | setEnvironment value => rfl

theorem Keeps.tableGives {later earlier : Session} (keeps : later.Keeps earlier)
    {answerOf : Table → Answer} {answer : Answer} (given : earlier.TableGives answerOf answer) :
    later.TableGives answerOf answer := by
  obtain ⟨table, settled, given⟩ := given
  exact ⟨table, keeps.table_eq table settled, given⟩

theorem Keeps.decoderGives {later earlier : Session} (keeps : later.Keeps earlier)
    {answerOf : Decoder → Answer} {answer : Answer} (given : earlier.DecoderGives answerOf answer) :
    later.DecoderGives answerOf answer := by
  obtain ⟨table, limits, settled, limited, given⟩ := given
  exact ⟨table, limits, keeps.table_eq table settled, keeps.limits_eq limits limited, given⟩

/-- An answer goes on resting on what is settled as long as that stays. -/
theorem Keeps.answeredFrom {later earlier : Session} (keeps : later.Keeps earlier)
    {request : Request} {answer : Answer} (answered : request.AnsweredFrom earlier answer) :
    request.AnsweredFrom later answer := by
  cases request with
  | install descriptors =>
      simp only [Request.AnsweredFrom] at answered ⊢
      cases built : (Table.build descriptors).value with
      | error fault => simpa only [built] using answered
      | ok table =>
          rw [built] at answered
          exact keeps.tableGives answered
  | describe => exact keeps.tableGives answered
  | lookup opcode => exact keeps.tableGives answered
  | decode script position =>
      rw [Request.AnsweredFrom] at answered ⊢
      exact keeps.decoderGives answered
  | walk script =>
      rw [Request.AnsweredFrom] at answered ⊢
      exact keeps.decoderGives answered
  | limits =>
      rw [Request.AnsweredFrom] at answered ⊢
      exact keeps.decoderGives answered
  | readEnvironment => exact answered
  | setEnvironment value => exact answered

/-- The first table that a run brings stays in force, unless one was in force before. -/
theorem table_answerAll (session : Session) (requests : List Request) :
    (session.answerAll requests).value.2.table =
      session.table.or (requests.findSome? Request.brings?) := by
  induction requests generalizing session with
  | nil => exact Option.or_none.symm
  | cons request rest ih =>
      -- What the first request brings goes before what the rest brings.
      rw [value_answerAll_cons, ih, table_outcome, Option.or_assoc, List.findSome?_cons]
      congr 1
      cases request.brings? <;> rfl

theorem keeps_answerAll (session : Session) (requests : List Request) :
    (session.answerAll requests).value.2.Keeps session := by
  induction requests generalizing session with
  | nil => exact .refl session
  | cons request rest ih =>
      rw [value_answerAll_cons]
      exact (ih _).trans (session.keeps_outcome request)

theorem keeps_after (session : Session) (requests : List Request) :
    (session.after requests).Keeps session :=
  session.keeps_answerAll requests

/-- All answers of a run rest on what is settled at its end. -/
theorem answeredFrom_answerAll (session : Session) (requests : List Request) :
    List.Forall₂ (Request.AnsweredFrom (session.answerAll requests).value.2) requests
      (session.answerAll requests).value.1 := by
  induction requests generalizing session with
  | nil => exact .nil
  | cons request rest ih =>
      rw [value_answerAll_cons]
      refine .cons ?_ (ih _)
      -- The first answer rests on an earlier session than the end of the run.
      exact ((session.outcome request).2.keeps_answerAll rest).answeredFrom
        (session.answeredFrom_outcome request)

/-- **The table is written once.** In a run from a fresh session the table in force
is the first one that a request brought, and none before that. It stays in force
whatever is asked next, and it is the table that all answers of the run rest on.
A refused installation leaves the session as it was. -/
theorem table_written_once (environment : Option Bytes) (requests : List Request) :
    ((fresh environment).answerAll requests).value.2.table =
        requests.findSome? Request.brings? ∧
    (∀ (further : List Request) (table : Table),
      ((fresh environment).answerAll requests).value.2.table = some table →
        ((fresh environment).answerAll (requests ++ further)).value.2.table = some table) ∧
    List.Forall₂ (Request.AnsweredFrom ((fresh environment).answerAll requests).value.2) requests
      ((fresh environment).answerAll requests).value.1 ∧
    ∀ (descriptors : List Descriptor) (fault : Fault),
      (Table.build descriptors).value = .error fault →
        ((fresh environment).answerAll (requests ++ [.install descriptors])).value.2 =
          ((fresh environment).answerAll requests).value.2 := by
  refine ⟨?_, ?_, answeredFrom_answerAll _ requests, ?_⟩
  · rw [table_answerAll, fresh, Option.none_or]
  · intro further table settled
    rw [value_answerAll_append]
    exact (keeps_answerAll _ further).table_eq table settled
  · intro descriptors fault refused
    simp only [value_answerAll_append, value_answerAll_cons, value_answerAll_nil, outcome, refused]

end Session

end Bytecode
