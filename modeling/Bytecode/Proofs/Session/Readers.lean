import Bytecode.Proofs.Session.Reports
import Mathlib.Data.List.Perm.Basic

/-! # Readers of a session

Clients that only read what a session has settled can take turns in any order. Each gets
the answers that it would get alone (`Session.shareOf_answerTurns`), and all turns together
report the same, in an order of their own (`Session.perm_events_answerAll`).
-/

namespace Bytecode

section Turns

variable {Client : Type} [DecidableEq Client] {α β : Type}

/-- The entries of one client, in their order. -/
def shareOf (client : Client) (entries : List (Client × α)) : List α :=
  (entries.filter (·.1 = client)).map (·.2)

/-- Turns that give every client what it asks for, in its own order. -/
def Interleaves (asked : Client → List α) (turns : List (Client × α)) : Prop :=
  ∀ client, shareOf client turns = asked client

theorem shareOf_map (client : Client) (convert : α → β) (entries : List (Client × α)) :
    shareOf client (entries.map fun entry => (entry.1, convert entry.2)) =
      (shareOf client entries).map convert := by
  simp only [shareOf, List.filter_map, List.map_map]
  rfl

variable {asked : Client → List α} {turns others : List (Client × α)}

theorem Interleaves.forall_turns (interleaved : Interleaves asked turns) {holds : α → Prop}
    (holdsAsked : ∀ client, ∀ entry ∈ asked client, holds entry) :
    ∀ turn ∈ turns, holds turn.2 := by
  intro turn member
  apply holdsAsked turn.1
  rw [← interleaved turn.1]
  apply List.mem_map.mpr
  exact ⟨turn, List.mem_filter.mpr ⟨member, decide_eq_true rfl⟩, rfl⟩

/-- All interleavings of the same requests have the same turns. -/
theorem Interleaves.perm (first : Interleaves asked turns) (second : Interleaves asked others) :
    turns.Perm others := by
  classical
  have count_share (entries : List (Client × α)) (client : Client) (entry : α) :
      entries.count (client, entry) = (shareOf client entries).count entry := by
    simp only [shareOf, List.count, List.countP_map, List.countP_filter]
    apply List.countP_congr
    simp only [Prod.forall, beq_iff_eq, Prod.mk.injEq, Function.comp_apply, Bool.and_eq_true,
      decide_eq_true_eq]
    intro owner content member
    exact And.comm
  apply List.perm_iff_count.mpr
  rintro ⟨client, entry⟩
  rw [count_share, count_share, first client, second client]

end Turns

/-- Whether an event reports a table that was built. -/
def Event.isTableBuilt : Event → Bool
  | .tableBuilt _ _ => true
  | .encodingReplaced _ _ _ | .setRejected _ | .installConflict | .limitIgnored _ _
  | .instructionRejected _ _ _ => false

/-- Whether an event warns of a limit setting that is no numeral. -/
def Event.isLimitIgnored : Event → Bool
  | .limitIgnored _ _ => true
  | .tableBuilt _ _ | .encodingReplaced _ _ _ | .setRejected _ | .installConflict
  | .instructionRejected _ _ _ => false

theorem Event.level_ne_of_isTableBuilt {event : Event} (built : event.isTableBuilt = true) :
    event.level ≠ .trace := by
  cases event with
  | tableBuilt descriptors prefixedEntries => exact Level.noConfusion
  | encodingReplaced | setRejected | installConflict | limitIgnored | instructionRejected =>
      cases built

theorem Event.level_ne_of_isLimitIgnored {event : Event} (ignored : event.isLimitIgnored = true) :
    event.level ≠ .trace := by
  cases event with
  | limitIgnored value reason => exact Level.noConfusion
  | tableBuilt | encodingReplaced | setRejected | installConflict | instructionRejected =>
      cases ignored

namespace Session

/-- The answers to clients that take turns, each with the client whose turn it was. -/
def answerTurns {Client : Type} (session : Session) (turns : List (Client × Request)) :
    List (Client × Answer) :=
  (turns.map (·.1)).zip (session.answerAll (turns.map (·.2))).value.1

variable {session later : Session} {request : Request} {requests : List Request}

/-- A request that only reads is answered from the decoder in force. -/
theorem answer_congr (reads : request.reads = true)
    (same : later.decoderInForce = session.decoderInForce) :
    (later.outcome request).1 = (session.outcome request).1 := by
  have table : later.tableInForce = session.tableInForce := congrArg Decoder.table same
  cases request with
  | describe | lookup _ => simp only [outcome, table]
  | decode _ _ | walk _ | limits => simp only [outcome, same]
  | install _ | readEnvironment | setEnvironment _ => cases reads

/-- It leaves the decoder in force as it was, settled or not. -/
theorem decoderInForce_outcome (reads : request.reads = true) :
    (session.outcome request).2.decoderInForce = session.decoderInForce := by
  rw [outcome_of_reads reads]
  cases request.usesDecoder with
  | true => rfl
  | false => rfl

theorem tableReports_outcome (reads : request.reads = true) :
    (session.outcome request).2.tableReports = [] := by
  rw [outcome_of_reads reads]
  cases request.usesDecoder with
  | true => rfl
  | false => rfl

theorem limitReports_outcome (reads : request.reads = true) :
    (session.outcome request).2.limitReports =
      if request.usesDecoder then [] else session.limitReports := by
  rw [outcome_of_reads reads]
  cases request.usesDecoder with
  | true => rfl
  | false => rfl

/-- In a run of such requests no answer depends on those before. -/
theorem value_answerAll_of_reads (reads : ∀ request ∈ requests, request.reads = true) :
    (session.answerAll requests).value.1 =
      requests.map fun request => (session.outcome request).1 := by
  induction requests generalizing session with
  | nil => rfl
  | cons request rest ih =>
      obtain ⟨readsFirst, readsRest⟩ := List.forall_mem_cons.mp reads
      rw [value_answerAll_cons, ih readsRest, List.map_cons]
      apply congrArg (List.cons _)
      apply List.map_congr_left
      intro other member
      exact answer_congr (readsRest other member) (decoderInForce_outcome readsFirst)

/-- What a run of such requests reports, whatever their order: what is settled at some point,
then what the decoder meets. -/
def readerReports (session : Session) (requests : List Request) : List Event :=
  (if requests.isEmpty then [] else session.tableReports) ++
    (if requests.any Request.usesDecoder then session.limitReports else []) ++
    requests.flatMap session.decoderInForce.reports

theorem perm_events_answerAll (reads : ∀ request ∈ requests, request.reads = true) :
    (session.answerAll requests).events.Perm (session.readerReports requests) := by
  induction requests generalizing session with
  | nil => exact .nil
  | cons request rest ih =>
      obtain ⟨readsFirst, readsRest⟩ := List.forall_mem_cons.mp reads
      have after : ((session.outcome request).2.answerAll rest).events.Perm
          ((session.outcome request).2.readerReports rest) := ih readsRest
      rw [readerReports, tableReports_outcome readsFirst, limitReports_outcome readsFirst,
        decoderInForce_outcome readsFirst, ite_self, List.nil_append] at after
      rw [events_answerAll_cons, events_answer_of_reads session readsFirst, settlingReports,
        readerReports, List.isEmpty_cons, List.any_cons, List.flatMap_cons]
      refine (after.append_left _).trans ?_
      cases request.usesDecoder with
      | true =>
          simp only [Bool.true_or, Bool.false_eq_true, ↓reduceIte, ite_self, List.nil_append,
            List.append_assoc, List.Perm.refl]
      | false =>
          -- The limits are settled later, so their reports move to the front.
          simp only [Bool.false_or, Bool.false_eq_true, ↓reduceIte, List.append_nil,
            List.append_assoc]
          exact (List.perm_append_comm_assoc _ _ _).append_left _

theorem readerReports_congr {others : List Request} (perm : requests.Perm others) :
    (session.readerReports requests).Perm (session.readerReports others) := by
  have isEmpty : requests.isEmpty = others.isEmpty := perm.isEmpty_eq
  have any : requests.any Request.usesDecoder = others.any Request.usesDecoder := perm.any_eq
  rw [readerReports, readerReports, isEmpty, any]
  exact (perm.flatMap_right _).append_left _

/-- Of what is louder than the decoder, a run reports what it settles. -/
theorem filter_readerReports {select : Event → Bool}
    (loud : ∀ {event}, select event = true → event.level ≠ .trace) (session : Session)
    (requests : List Request) :
    (session.readerReports requests).filter select =
      (if requests.isEmpty then [] else session.tableReports).filter select ++
        (if requests.any Request.usesDecoder then session.limitReports else []).filter select := by
  have working : (requests.flatMap session.decoderInForce.reports).filter select = [] := by
    apply List.filter_eq_nil_iff.mpr
    intro event member selected
    obtain ⟨request, -, reported⟩ := List.mem_flatMap.mp member
    exact loud selected (Decoder.level_of_mem_reports reported)
  rw [readerReports, List.filter_append, List.filter_append, working, List.append_nil]

theorem limitReports_if_eq_nil_or (session : Session) (needed : Bool) :
    (if needed then session.limitReports else []) = [] ∨
      ∃ value reason,
        (if needed then session.limitReports else []) = [.limitIgnored value reason] := by
  cases needed with
  | false => exact .inl rfl
  | true => exact session.limitReports_eq_nil_or

theorem filter_isTableBuilt_readerReports (session : Session) (requests : List Request) :
    (session.readerReports requests).filter Event.isTableBuilt =
      if session.table = none ∧ requests ≠ [] then
        [.tableBuilt 47 Neo.loadTable.value.prefixedEntries]
      else [] := by
  have settling : (if requests.any Request.usesDecoder then session.limitReports
      else []).filter Event.isTableBuilt = [] := by
    rcases session.limitReports_if_eq_nil_or _ with silent | ⟨value, reason, warned⟩
    · rw [silent, List.filter_nil]
    · rw [warned]
      rfl
  rw [filter_readerReports Event.level_ne_of_isTableBuilt, settling, List.append_nil,
    tableReports_eq]
  cases requests with
  | nil => exact (if_neg fun both => both.2 rfl).symm
  | cons request rest =>
      by_cases unsettled : session.table = none
      · simp only [unsettled, List.isEmpty_cons, Bool.false_eq_true, ↓reduceIte, true_and, ne_eq,
          reduceCtorEq, not_false_eq_true]
        rfl
      · simp only [unsettled, List.isEmpty_cons, Bool.false_eq_true, ↓reduceIte, false_and,
          List.filter_nil]

theorem countP_isLimitIgnored_readerReports (session : Session) (requests : List Request) :
    (session.readerReports requests).countP Event.isLimitIgnored ≤ 1 := by
  have settling : (if requests.isEmpty then [] else session.tableReports).filter
      Event.isLimitIgnored = [] := by
    apply List.filter_eq_nil_iff.mpr
    intro event member ignored
    split at member
    · cases member
    · cases event with
      | limitIgnored value reason => exact limitIgnored_not_mem_tableReports member
      | tableBuilt | encodingReplaced | setRejected | installConflict | instructionRejected =>
          cases ignored
  rw [List.countP_eq_length_filter, filter_readerReports Event.level_ne_of_isLimitIgnored,
    settling, List.nil_append]
  rcases session.limitReports_if_eq_nil_or _ with silent | ⟨value, reason, warned⟩
  · rw [silent]
    exact Nat.zero_le 1
  · rw [warned]
    exact Nat.le_refl 1

theorem answerTurns_eq {Client : Type} {turns : List (Client × Request)}
    (reads : ∀ turn ∈ turns, turn.2.reads = true) :
    session.answerTurns turns =
      turns.map fun turn => (turn.1, (session.outcome turn.2).1) := by
  have readsAll : ∀ request ∈ turns.map (·.2), request.reads = true := List.forall_mem_map.mpr reads
  rw [answerTurns, value_answerAll_of_reads readsAll, List.map_map, List.zip_map']
  rfl

variable {Client : Type} [DecidableEq Client] {asked : Client → List Request}
  {turns others : List (Client × Request)}

/-- Each client gets the answers that it would get alone. -/
theorem shareOf_answerTurns (reads : ∀ client, ∀ request ∈ asked client, request.reads = true)
    (interleaved : Interleaves asked turns) (client : Client) :
    shareOf client (session.answerTurns turns) = (session.answerAll (asked client)).value.1 := by
  rw [answerTurns_eq (interleaved.forall_turns reads),
    value_answerAll_of_reads (reads client), ← interleaved client]
  exact shareOf_map client (fun request => (session.outcome request).1) turns

/-- What all turns together report does not depend on their order. -/
theorem perm_events_turns (reads : ∀ client, ∀ request ∈ asked client, request.reads = true)
    (interleaved : Interleaves asked turns) :
    (session.answerAll (turns.map (·.2))).events.Perm
      (session.readerReports (turns.map (·.2))) := by
  apply perm_events_answerAll
  exact List.forall_mem_map.mpr (interleaved.forall_turns reads)

/-- **Readers do not disturb one another.** However clients that only read take turns, each
of them gets the answers that it would get alone, and all turns together report the same.
The table is reported if none was in force and there is a turn at all, and at most one
report warns of the limit setting. -/
theorem readers_undisturbed (session : Session) (asked : Client → List Request)
    (turns : List (Client × Request))
    (reads : ∀ client, ∀ request ∈ asked client, request.reads = true)
    (interleaved : Interleaves asked turns) :
    (∀ client, shareOf client (session.answerTurns turns) =
      (session.answerAll (asked client)).value.1) ∧
    (∀ others, Interleaves asked others →
      (session.answerAll (others.map (·.2))).events.Perm
        (session.answerAll (turns.map (·.2))).events) ∧
    (session.answerAll (turns.map (·.2))).events.filter Event.isTableBuilt =
      (if session.table = none ∧ turns ≠ [] then
        [.tableBuilt 47 Neo.loadTable.value.prefixedEntries]
      else []) ∧
    (session.answerAll (turns.map (·.2))).events.countP Event.isLimitIgnored ≤ 1 := by
  have reported := session.perm_events_turns reads interleaved
  refine ⟨shareOf_answerTurns reads interleaved, ?_, ?_, ?_⟩
  · intro others interleavedToo
    have requests : (others.map (·.2)).Perm (turns.map (·.2)) :=
      (interleavedToo.perm interleaved).map _
    apply (perm_events_turns reads interleavedToo).trans
    apply (readerReports_congr requests).trans
    exact reported.symm
  · have built := reported.filter Event.isTableBuilt
    rw [filter_isTableBuilt_readerReports] at built
    simp only [ne_eq, List.map_eq_nil_iff] at built ⊢
    by_cases due : session.table = none ∧ ¬turns = []
    · rw [if_pos due] at built ⊢
      exact List.perm_singleton.mp built
    · rw [if_neg due] at built ⊢
      exact built.eq_nil
  · rw [reported.countP_eq]
    exact session.countP_isLimitIgnored_readerReports _

/-- Two clients, of which one settles the table and the other the limits. -/
theorem readers_undisturbed_of_two :
    let asked : Bool → List Request := fun client =>
      if client then [.walk [0x40]] else [.describe, .limits]
    let turns : List (Bool × Request) :=
      [(false, .describe), (true, .walk [0x40]), (false, .limits)]
    (∀ client, ∀ request ∈ asked client, request.reads = true) ∧ Interleaves asked turns ∧
    (∀ client, shareOf client ((fresh none).answerTurns turns) =
      ((fresh none).answerAll (asked client)).value.1) ∧
    ((fresh none).answerAll (turns.map (·.2))).events.filter Event.isTableBuilt =
      [.tableBuilt 47 Neo.loadTable.value.prefixedEntries] := by
  intro asked turns
  have reads : ∀ client, ∀ request ∈ asked client, request.reads = true := by decide
  have interleaved : Interleaves asked turns := by
    intro client
    cases client with
    | false => rfl
    | true => rfl
  obtain ⟨shares, -, built, -⟩ := readers_undisturbed (fresh none) asked turns reads interleaved
  exact ⟨reads, interleaved, shares, built.trans (if_pos ⟨rfl, List.cons_ne_nil _ _⟩)⟩

end Session

end Bytecode
