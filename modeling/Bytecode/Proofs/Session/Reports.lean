import Bytecode.Proofs.Session.WriteOnce
import Bytecode.Proofs.Table.Replacements
import Bytecode.Proofs.Walk.Course

/-! # What requests report

A request that reads what is settled reports twice: first what it settles itself, which
is nothing for whatever was settled before, and then what the decoder meets
(`Session.events_answer_of_reads`). The reports of a run are those of its requests in
order (`Session.events_answerAll_cons`).
-/

namespace Bytecode

/-- Whether a request only reads what is settled. -/
def Request.reads : Request → Bool
  | .describe | .lookup _ | .decode _ _ | .walk _ | .limits => true
  | .install _ | .readEnvironment | .setEnvironment _ => false

/-- Whether a request is for the decoder, and so for the limits. -/
def Request.usesDecoder : Request → Bool
  | .decode _ _ | .walk _ | .limits => true
  | .install _ | .describe | .lookup _ | .readEnvironment | .setEnvironment _ => false

theorem Request.reads_of_usesDecoder {request : Request} (uses : request.usesDecoder = true) :
    request.reads = true := by
  cases request with
  | decode script position => rfl
  | walk script => rfl
  | limits => rfl
  | install _ | describe | lookup _ | readEnvironment | setEnvironment _ => cases uses

/-- What a decoder reports while it answers a request. -/
def Decoder.reports (decoder : Decoder) : Request → List Event
  | .decode script position => (decoder.decodeLogged script position).events
  | .walk script => (decoder.walk script).events
  | .install _ | .describe | .lookup _ | .limits | .readEnvironment | .setEnvironment _ => []

/-- A decoder reports nothing but the instructions that it rejects. -/
theorem Cursor.level_of_mem_drain {cursor : Cursor} {event : Event}
    (member : event ∈ cursor.drain.1.events) : event.level = .trace := by
  induction cursor using Cursor.stepInduction with
  | stopped cursor step =>
      rw [drain_of_next?_eq_none step] at member
      cases member
  | stepped cursor item later step ih =>
      rw [drain_of_next?_eq_some step] at member
      rcases List.mem_append.mp member with here | after
      · obtain ⟨-, -, ⟨instruction, -, rfl, -⟩ | ⟨fault, -, rfl, -⟩⟩ := next?_cases step
        · cases here
        · cases List.mem_singleton.mp here
          rfl
      · exact ih after

theorem Decoder.level_of_mem_reports {decoder : Decoder} {request : Request} {event : Event}
    (member : event ∈ decoder.reports request) : event.level = .trace := by
  cases request with
  | decode script position =>
      simp only [reports, decodeLogged] at member
      cases found : decoder.takeInstruction position (script.drop position) with
      | ok instruction =>
          rw [found] at member
          cases member
      | error fault =>
          rw [found] at member
          cases List.mem_singleton.mp member
          rfl
  | walk script => exact Cursor.level_of_mem_drain member
  | install _ | describe | lookup _ | limits | readEnvironment | setEnvironment _ => cases member

namespace Session

/-- What is reported when the table is settled; nothing if it is settled already. -/
def tableReports (session : Session) : List Event :=
  match session.table with
  | none => Neo.loadTable.events
  | some _ => []

/-- What is reported when the limits are settled; nothing if they are settled already. -/
def limitReports (session : Session) : List Event :=
  match session.limits with
  | none => (Limits.ofEnvironment session.environment).events
  | some _ => []

/-- What is reported of settling all that a request reads. -/
def settlingReports (session : Session) (request : Request) : List Event :=
  session.tableReports ++ if request.usesDecoder then session.limitReports else []

/-- A request that only reads settles the table, and the limits too where it is for the
decoder. -/
theorem outcome_of_reads {session : Session} {request : Request} (reads : request.reads = true) :
    (session.outcome request).2 =
      if request.usesDecoder then session.settleDecoder else session.settleTable := by
  cases request with
  | describe | lookup _ | decode _ _ | walk _ | limits => rfl
  | install _ | readEnvironment | setEnvironment _ => cases reads

theorem events_useTable (session : Session) : session.useTable.events = session.tableReports := by
  obtain ⟨table, environment, limits⟩ := session
  cases table with
  | none => exact List.append_nil _
  | some table => rfl

theorem events_useLimits (session : Session) :
    session.useLimits.events = session.limitReports := by
  obtain ⟨table, environment, limits⟩ := session
  cases limits with
  | none => exact List.append_nil _
  | some limits => rfl

theorem events_useDecoder (session : Session) :
    session.useDecoder.events = session.tableReports ++ session.limitReports := by
  simp only [useDecoder, Logged.events_bind, events_useTable, value_useTable, events_useLimits,
    Logged.events_pure, List.append_nil]
  rfl

theorem events_answer_of_reads (session : Session) {request : Request}
    (reads : request.reads = true) :
    (session.answer request).events =
      session.settlingReports request ++ session.decoderInForce.reports request := by
  cases request with
  | describe | lookup _ =>
      simp only [answer, Logged.events_bind, events_useTable, Logged.events_pure, settlingReports,
        Request.usesDecoder, Decoder.reports, Bool.false_eq_true, ↓reduceIte, List.append_nil]
  | decode script position | walk script =>
      simp only [answer, Logged.events_bind, events_useDecoder, value_useDecoder,
        Logged.events_pure, settlingReports, Request.usesDecoder, Decoder.reports, ↓reduceIte,
        List.append_nil]
  | limits =>
      simp only [answer, Logged.events_bind, events_useDecoder, Logged.events_pure,
        settlingReports, Request.usesDecoder, Decoder.reports, ↓reduceIte]
  | install _ | readEnvironment | setEnvironment _ => cases reads

theorem events_install (session : Session) (descriptors : List Descriptor) :
    (session.install descriptors).events = (Table.build descriptors).events ++
      match (Table.build descriptors).value, session.table with
      | .error fault, _ => [.setRejected fault]
      | .ok _, none => []
      | .ok built, some current => if current = built then [] else [.installConflict] := by
  simp only [install, Logged.events_bind, Table.demand]
  cases (Table.build descriptors).value with
  | error fault => exact List.append_nil _
  | ok built =>
      cases session.table with
      | none => rfl
      | some current =>
          by_cases same : current = built
          · simp only [same, ↓reduceIte, Logged.events_pure]
          · simp only [same, ↓reduceIte, Logged.events_bind, Logged.events_report,
              Logged.events_pure, List.append_nil]

theorem limitReports_of_some {session : Session} {limits : Limits}
    (settled : session.limits = some limits) : session.limitReports = [] := by
  rw [limitReports, settled]

/-- Settling the limits reports at most one thing, a setting that holds no numeral. -/
theorem limitReports_eq_nil_or (session : Session) :
    session.limitReports = [] ∨
      ∃ value reason, session.limitReports = [.limitIgnored value reason] := by
  cases settled : session.limits with
  | some limits => exact .inl (limitReports_of_some settled)
  | none =>
      simp only [limitReports, settled, Limits.ofEnvironment]
      cases session.environment.bind fun bytes => String.fromUTF8? ⟨bytes.toArray⟩ with
      | none => exact .inl rfl
      | some value =>
          cases read : Numeral.read (Text.trim value.toList) with
          | ok length => exact .inl (by simp only [Limits.ofSetting, read, Logged.silent])
          | error reason => exact .inr ⟨value, reason, by simp only [Limits.ofSetting, read]⟩

theorem tableReports_eq (session : Session) :
    session.tableReports =
      if session.table = none then [.tableBuilt 47 Neo.loadTable.value.prefixedEntries]
      else [] := by
  rw [tableReports]
  cases session.table with
  | none => exact Neo.events_loadTable
  | some table => rfl

/-- Building and installing tables warns of no setting. -/
theorem limitIgnored_not_mem_install {session : Session} {descriptors : List Descriptor}
    {value : String} {reason : Numeral.Error} :
    .limitIgnored value reason ∉ (session.install descriptors).events := by
  intro member
  rw [events_install, Table.events_build] at member
  rcases List.mem_append.mp member with building | ending
  · rcases List.mem_append.mp building with replacing | built
    · obtain ⟨_, _, _, other⟩ := Descriptor.exists_eq_of_mem_replacements replacing
      cases other
    · cases made : (Table.build descriptors).value with
      | error fault =>
          rw [made] at built
          cases built
      | ok table =>
          rw [made] at built
          cases List.mem_singleton.mp built
  · split at ending
    · cases List.mem_singleton.mp ending
    · cases ending
    · split at ending
      · cases ending
      · cases List.mem_singleton.mp ending

theorem limitIgnored_not_mem_tableReports {session : Session} {value : String}
    {reason : Numeral.Error} : .limitIgnored value reason ∉ session.tableReports := by
  intro member
  rw [tableReports_eq] at member
  by_cases unsettled : session.table = none
  · rw [if_pos unsettled] at member
    cases List.mem_singleton.mp member
  · rw [if_neg unsettled] at member
    cases member

/-- A setting is warned of where the environment is read: by a request to do so, or when
the limits are settled. -/
theorem reads_of_limitIgnored_mem {session : Session} {request : Request} {value : String}
    {reason : Numeral.Error}
    (member : .limitIgnored value reason ∈ (session.answer request).events) :
    request = .readEnvironment ∨ request.usesDecoder = true ∧ session.limits = none := by
  cases kind : request.reads with
  | true =>
      right
      rw [events_answer_of_reads session kind, settlingReports] at member
      rcases List.mem_append.mp member with settling | working
      · rcases List.mem_append.mp settling with settlingTable | settlingLimits
        · exact absurd settlingTable limitIgnored_not_mem_tableReports
        · cases uses : request.usesDecoder with
          | false =>
              rw [uses] at settlingLimits
              cases settlingLimits
          | true =>
              refine ⟨rfl, ?_⟩
              cases settled : session.limits with
              | none => rfl
              | some limits =>
                  rw [uses, limitReports_of_some settled] at settlingLimits
                  cases settlingLimits
      · cases Decoder.level_of_mem_reports working
  | false =>
      cases request with
      | install descriptors => exact absurd member limitIgnored_not_mem_install
      | readEnvironment => exact .inl rfl
      | setEnvironment setting => cases member
      | describe | lookup _ | decode _ _ | walk _ | limits => cases kind

theorem events_answerAll_cons (session : Session) (request : Request) (rest : List Request) :
    (session.answerAll (request :: rest)).events =
      (session.answer request).events ++ ((session.outcome request).2.answerAll rest).events := by
  simp only [answerAll, Logged.events_bind, value_answer, Logged.events_pure, List.append_nil]

end Session

end Bytecode
