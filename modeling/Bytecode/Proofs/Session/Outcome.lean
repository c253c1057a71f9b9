import Bytecode.Session

/-! # Outcomes of requests

The outcome of a request is its answer and the session after it, without the
events (`Session.value_answer`). A run of requests chains the outcomes
(`Session.value_answerAll_cons`).
-/

namespace Bytecode.Session

/-- The table that a use of the table is answered from. -/
def tableInForce (session : Session) : Table := session.table.getD Neo.loadTable.value

/-- The limits that a use of the decoder is answered under. -/
def limitsInForce (session : Session) : Limits :=
  session.limits.getD (Limits.ofEnvironment session.environment).value

/-- The decoder that a use of it is answered by. -/
def decoderInForce (session : Session) : Decoder := ⟨session.tableInForce, session.limitsInForce⟩

/-- The session after its table was used. -/
def settleTable (session : Session) : Session :=
  { session with table := some session.tableInForce }

/-- The session after its decoder was used. -/
def settleDecoder (session : Session) : Session :=
  { session with table := some session.tableInForce, limits := some session.limitsInForce }

/-- The answer to a request and the session after it. -/
def outcome (session : Session) : Request → Answer × Session
  | .install descriptors =>
      match (Table.build descriptors).value with
      | .error fault => (.aborted (.malformedSet fault), session)
      | .ok table =>
          match session.table with
          | none => (.installed table, { session with table := some table })
          | some current =>
              (if current = table then .installed current else .aborted .tableConflict, session)
  | .describe => (.table session.tableInForce, session.settleTable)
  | .lookup opcode => (.encoding (session.tableInForce.lookup opcode), session.settleTable)
  | .decode script position =>
      (.decoded (session.decoderInForce.decode script position), session.settleDecoder)
  | .walk script => (.walked (session.decoderInForce.walk script).value, session.settleDecoder)
  | .limits => (.limits session.decoderInForce.limits, session.settleDecoder)
  | .readEnvironment =>
      (.environmentLimits (Limits.ofEnvironment session.environment).value, session)
  | .setEnvironment value => (.environmentSet, { session with environment := value })

/-- An installation changes nothing but the table. -/
theorem exists_table_outcome_install (session : Session) (descriptors : List Descriptor) :
    ∃ table, (session.outcome (.install descriptors)).2 = { session with table := table } := by
  simp only [outcome]
  cases (Table.build descriptors).value with
  | error fault => exact ⟨session.table, rfl⟩
  | ok built =>
      cases session.table with
      | none => exact ⟨some built, rfl⟩
      | some current => exact ⟨session.table, rfl⟩

theorem value_useTable (session : Session) :
    session.useTable.value = (session.tableInForce, session.settleTable) := by
  obtain ⟨table, environment, limits⟩ := session
  cases table with
  | none => rfl
  | some table => rfl

theorem value_useLimits (session : Session) :
    session.useLimits.value =
      (session.limitsInForce, { session with limits := some session.limitsInForce }) := by
  obtain ⟨table, environment, limits⟩ := session
  cases limits with
  | none => rfl
  | some limits => rfl

theorem value_useDecoder (session : Session) :
    session.useDecoder.value = (session.decoderInForce, session.settleDecoder) := by
  simp only [useDecoder, Logged.value_bind, value_useTable, value_useLimits, Logged.value_pure]
  rfl

theorem value_install (session : Session) (descriptors : List Descriptor) :
    (session.install descriptors).value = session.outcome (.install descriptors) := by
  simp only [install, Logged.value_bind, Table.demand, outcome]
  cases (Table.build descriptors).value with
  | error fault => rfl
  | ok table =>
      cases session.table with
      | none => rfl
      | some current =>
          by_cases same : current = table
          · simp only [same, ↓reduceIte, Logged.value_pure]
          · simp only [same, ↓reduceIte, Logged.value_bind, Logged.value_pure]

/-- Apart from its events, answering a request has the outcome of the request. -/
theorem value_answer (session : Session) (request : Request) :
    (session.answer request).value = session.outcome request := by
  cases request with
  | install descriptors => exact session.value_install descriptors
  | describe => simp only [answer, Logged.value_bind, value_useTable, Logged.value_pure, outcome]
  | lookup opcode =>
      simp only [answer, Logged.value_bind, value_useTable, Logged.value_pure, outcome]
  | decode script position =>
      simp only [answer, Logged.value_bind, value_useDecoder, Decoder.value_decodeLogged,
        Logged.value_pure, outcome]
  | walk script =>
      simp only [answer, Logged.value_bind, value_useDecoder, Logged.value_pure, outcome]
  | limits => simp only [answer, Logged.value_bind, value_useDecoder, Logged.value_pure, outcome]
  | readEnvironment => rfl
  | setEnvironment value => rfl

@[simp] theorem value_answerAll_nil (session : Session) :
    (session.answerAll []).value = ([], session) := rfl

theorem value_answerAll_cons (session : Session) (request : Request) (rest : List Request) :
    (session.answerAll (request :: rest)).value =
      ((session.outcome request).1 :: ((session.outcome request).2.answerAll rest).value.1,
        ((session.outcome request).2.answerAll rest).value.2) := by
  simp only [answerAll, Logged.value_bind, value_answer, Logged.value_pure]

/-- A longer run goes on from the session that a shorter one leaves. -/
theorem value_answerAll_append (session : Session) (first second : List Request) :
    (session.answerAll (first ++ second)).value =
      ((session.answerAll first).value.1 ++
          ((session.answerAll first).value.2.answerAll second).value.1,
        ((session.answerAll first).value.2.answerAll second).value.2) := by
  induction first generalizing session with
  | nil => rfl
  | cons request rest ih =>
      simp only [List.cons_append, value_answerAll_cons, ih]

/-- The session that requests leave. -/
def after (session : Session) (requests : List Request) : Session :=
  (session.answerAll requests).value.2

@[simp] theorem after_nil (session : Session) : session.after [] = session := rfl

theorem after_cons (session : Session) (request : Request) (rest : List Request) :
    session.after (request :: rest) = (session.outcome request).2.after rest := by
  rw [after, value_answerAll_cons, after]

theorem after_append (session : Session) (first second : List Request) :
    session.after (first ++ second) = (session.after first).after second := by
  rw [after, value_answerAll_append, after, after]

end Bytecode.Session
