import Bytecode.Proofs.Session.Reports

/-! # The limits of a session are settled once

The environment setting of the limit can change at any time. The limits in force are those
of the setting that the first use of the decoder finds, whatever becomes of it later; to
read the environment tells the limits of the moment (`Session.limits_settled_once`).
-/

namespace Bytecode

/-- A setting that is a text, but no numeral. -/
def Limits.Unparsable (setting : Option Bytes) (text : String) (reason : Numeral.Error) : Prop :=
  (setting.bind fun bytes => String.fromUTF8? ⟨bytes.toArray⟩) = some text ∧
    Numeral.read (Text.trim text.toList) = .error reason

theorem Limits.Unparsable.ofEnvironment_eq {setting : Option Bytes} {text : String}
    {reason : Numeral.Error} (unparsable : Unparsable setting text reason) :
    ofEnvironment setting = ⟨standard, [.limitIgnored text reason]⟩ := by
  obtain ⟨text, refused⟩ := unparsable
  simp only [ofEnvironment, text, ofSetting, refused]

/-- The setting that a request puts into the environment. -/
def Request.setting? : Request → Option (Option Bytes)
  | .setEnvironment setting => some setting
  | .install _ | .describe | .lookup _ | .decode _ _ | .walk _ | .limits | .readEnvironment => none

/-- The environment setting after requests: the last that one of them put there. -/
def settingAfter (setting : Option Bytes) (requests : List Request) : Option Bytes :=
  (requests.filterMap Request.setting?).getLast?.getD setting

theorem settingAfter_cons (setting : Option Bytes) (request : Request) (rest : List Request) :
    settingAfter setting (request :: rest) =
      settingAfter (request.setting?.getD setting) rest := by
  rw [settingAfter, settingAfter, List.filterMap_cons]
  cases request.setting? with
  | none => rfl
  | some put => rw [List.getLast?_cons, Option.getD_some, Option.getD_some]

/-- An entry of a list is at a given place, before it or behind it. -/
theorem at_before_or_behind {α : Type} {earlier later before rest : List α} {first entry : α}
    (same : earlier ++ first :: later = before ++ entry :: rest) :
    before = earlier ∨ entry ∈ earlier ∨ ∃ between, before = earlier ++ first :: between := by
  rcases List.append_eq_append_iff.mp same with
    ⟨between, split, remains⟩ | ⟨between, split, remains⟩
  · cases between with
    | nil => exact .inl (by rw [split, List.append_nil])
    | cons head between =>
        cases remains
        exact .inr (.inr ⟨between, split⟩)
  · cases between with
    | nil => exact .inl (by rw [split, List.append_nil])
    | cons head between =>
        cases remains
        apply Or.inr
        apply Or.inl
        rw [split]
        exact List.mem_append_right before List.mem_cons_self

namespace Session

variable {session : Session} {request : Request}

theorem environment_outcome (session : Session) (request : Request) :
    (session.outcome request).2.environment = request.setting?.getD session.environment := by
  cases request with
  | install descriptors =>
      obtain ⟨table, installed⟩ := session.exists_table_outcome_install descriptors
      rw [installed]
      rfl
  | setEnvironment setting => rfl
  | describe | lookup _ | decode _ _ | walk _ | limits | readEnvironment => rfl

theorem environment_after (session : Session) (requests : List Request) :
    (session.after requests).environment = settingAfter session.environment requests := by
  induction requests generalizing session with
  | nil => rfl
  | cons request rest ih => rw [after_cons, ih, environment_outcome, settingAfter_cons]

/-- No request but one for the decoder settles the limits. -/
theorem limits_outcome_of_unused (unused : request.usesDecoder = false) :
    (session.outcome request).2.limits = session.limits := by
  cases request with
  | install descriptors =>
      obtain ⟨table, installed⟩ := session.exists_table_outcome_install descriptors
      rw [installed]
  | describe | lookup _ | readEnvironment | setEnvironment _ => rfl
  | decode _ _ | walk _ | limits => cases unused

theorem limits_outcome_of_used (used : request.usesDecoder = true) :
    (session.outcome request).2.limits = some session.limitsInForce := by
  rw [outcome_of_reads (Request.reads_of_usesDecoder used), if_pos used]
  rfl

theorem limits_after_of_unused {requests : List Request}
    (unused : ∀ request ∈ requests, request.usesDecoder = false) :
    (session.after requests).limits = session.limits := by
  induction requests generalizing session with
  | nil => rfl
  | cons request rest ih =>
      rw [after_cons, ih fun later member => unused later (List.mem_cons_of_mem request member)]
      exact limits_outcome_of_unused (unused request List.mem_cons_self)

/-- **What the first use of the decoder settles.** Requests that use no decoder come
first, then one that does, in a session that starts with a given environment setting. -/
structure SettlesLimits (environment : Option Bytes) (earlier : List Request) (first : Request) :
    Prop where
  /-- Nothing before the first use settles the limits. -/
  unsettled : ((fresh environment).after earlier).limits = none
  /-- From then on the limits are those of the setting that the first use found. -/
  settled : ∀ later, ((fresh environment).after (earlier ++ first :: later)).limits =
    some (Limits.ofEnvironment (settingAfter environment earlier)).value
  /-- They are what all answers rest on, those at the first use and later. -/
  answered : ∀ later,
    List.Forall₂ (Request.AnsweredFrom ((fresh environment).after (earlier ++ first :: later)))
      (earlier ++ first :: later)
      ((fresh environment).answerAll (earlier ++ first :: later)).value.1
  /-- The first use reports a table that it has to build, then what is wrong with the
  setting, and last what it cannot decode. -/
  reported : (((fresh environment).after earlier).answer first).events =
    (if ((fresh environment).after earlier).table = none
      then [.tableBuilt 47 Neo.loadTable.value.prefixedEntries] else []) ++
    (Limits.ofEnvironment (settingAfter environment earlier)).events ++
    ((fresh environment).after earlier).decoderInForce.reports first
  /-- A setting that is no numeral is warned of once among these reports, and leaves the
  standard limits. -/
  unparsable : ∀ text reason, Limits.Unparsable (settingAfter environment earlier) text reason →
    Limits.ofEnvironment (settingAfter environment earlier) =
      ⟨.standard, [.limitIgnored text reason]⟩
  /-- Other than at the first use, a setting is warned of only when the environment is read. -/
  warned : ∀ later before request rest text reason,
    earlier ++ first :: later = before ++ request :: rest →
    .limitIgnored text reason ∈ (((fresh environment).after before).answer request).events →
    before = earlier ∨ request = .readEnvironment

variable {environment : Option Bytes} {earlier : List Request} {first : Request}

theorem limits_after_first (unused : ∀ request ∈ earlier, request.usesDecoder = false)
    (used : first.usesDecoder = true) (later : List Request) :
    ((fresh environment).after (earlier ++ first :: later)).limits =
      some (Limits.ofEnvironment (settingAfter environment earlier)).value := by
  have unsettled : ((fresh environment).after earlier).limits = none :=
    limits_after_of_unused unused
  have settled : (((fresh environment).after earlier).outcome first).2.limits =
      some ((fresh environment).after earlier).limitsInForce :=
    limits_outcome_of_used used
  rw [limitsInForce, unsettled, Option.getD_none, environment_after, fresh] at settled
  rw [after_append, after_cons]
  exact (keeps_after _ later).limits_eq _ settled

theorem settlesLimits (unused : ∀ request ∈ earlier, request.usesDecoder = false)
    (used : first.usesDecoder = true) : SettlesLimits environment earlier first where
  unsettled := limits_after_of_unused unused
  settled := limits_after_first unused used
  answered later := answeredFrom_answerAll _ _
  reported := by
    have unsettled : ((fresh environment).after earlier).limits = none :=
      limits_after_of_unused unused
    rw [events_answer_of_reads _ (Request.reads_of_usesDecoder used), settlingReports, if_pos used,
      tableReports_eq, limitReports, unsettled, environment_after, fresh]
  unparsable text reason unparsable := unparsable.ofEnvironment_eq
  warned later before request rest text reason same member := by
    rcases reads_of_limitIgnored_mem member with reading | ⟨uses, unsettled⟩
    · exact .inr reading
    · rcases at_before_or_behind same with here | inside | ⟨between, rfl⟩
      · exact .inl here
      · cases (unused request inside).symm.trans uses
      · cases (limits_after_first unused used between).symm.trans unsettled

/-- **The limits are settled once.** The first use of the decoder settles them from the
environment setting of that moment, for itself and all that follows, and warns of a setting
that is no numeral. To read the environment tells the limits of the setting at each moment
and changes nothing. -/
theorem limits_settled_once (environment : Option Bytes) (earlier : List Request)
    (first : Request) (unused : ∀ request ∈ earlier, request.usesDecoder = false)
    (used : first.usesDecoder = true) :
    SettlesLimits environment earlier first ∧
    ∀ before, ((fresh environment).after before).answer .readEnvironment =
      ⟨(.environmentLimits (Limits.ofEnvironment (settingAfter environment before)).value,
          (fresh environment).after before),
        (Limits.ofEnvironment (settingAfter environment before)).events⟩ := by
  refine ⟨settlesLimits unused used, ?_⟩
  intro before
  have found : ((fresh environment).after before).environment = settingAfter environment before :=
    environment_after _ before
  rw [← found]
  apply Logged.ext
  · exact value_answer _ _
  · exact List.append_nil _

/-- The setting is no numeral when an empty walk settles the limits; a numeral comes too late. -/
theorem limits_settled_once_by_empty_walk :
    let earlier := [.install [], .setEnvironment (some [0x78]), .readEnvironment]
    (∀ request ∈ earlier, request.usesDecoder = false) ∧
    Request.usesDecoder (.walk []) = true ∧
    Limits.Unparsable (settingAfter none earlier) "x" .invalidDigit ∧
    SettlesLimits none earlier (.walk []) ∧
    ((fresh none).after (earlier ++ [.walk [], .setEnvironment (some [0x32])])).limits =
      some .standard := by
  intro earlier
  have unused : ∀ request ∈ earlier, request.usesDecoder = false := by decide
  have unparsable : Limits.Unparsable (settingAfter none earlier) "x" .invalidDigit :=
    ⟨by decide, by decide⟩
  obtain ⟨settles, -⟩ := limits_settled_once none earlier (.walk []) unused rfl
  refine ⟨unused, rfl, unparsable, settles, ?_⟩
  rw [settles.settled, unparsable.ofEnvironment_eq]

end Session

end Bytecode
