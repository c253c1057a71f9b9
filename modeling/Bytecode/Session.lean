import Bytecode.Neo
import Bytecode.Walk

/-! # Sessions

A session is what the users of one process share: the table in force, the
environment setting of the limit, and the limits taken from it. The table is
settled by its first use or by an installation before that, the limits by their
first use; both stay for the rest of the session.
-/

namespace Bytecode

/-- What the users of one process share. -/
structure Session where
  /-- The table in force, once it is settled. -/
  table : Option Table
  /-- The environment setting of the limit, if it is set. -/
  environment : Option Bytes
  /-- The limits in force, once they are settled. -/
  limits : Option Limits
  deriving DecidableEq

/-- What a session is asked for. -/
inductive Request where
  /-- Put a descriptor set in force. -/
  | install (descriptors : List Descriptor)
  | describe
  | lookup (opcode : Opcode)
  | decode (script : Bytes) (position : Nat)
  | walk (script : Bytes)
  | limits
  /-- Show the limits that the environment asks for at this moment. -/
  | readEnvironment
  /-- Change the environment setting of the limit. -/
  | setEnvironment (value : Option Bytes)

/-- What a session answers. -/
inductive Answer where
  | installed (table : Table)
  | table (table : Table)
  | encoding (encoding : Encoding)
  | decoded (outcome : Except Fault Instruction)
  | walked (walk : Walk)
  | limits (limits : Limits)
  | environmentLimits (limits : Limits)
  | environmentSet
  | aborted (cause : Abort)

namespace Session

/-- A session at its start, in which nothing is settled. -/
def fresh (environment : Option Bytes) : Session := ⟨none, environment, none⟩

/-- The table in force; the Neo table is settled if none is. -/
def useTable (session : Session) : Logged (Table × Session) :=
  match session.table with
  | some table => .silent (table, session)
  | none => do
      let table ← Neo.loadTable
      return (table, { session with table := some table })

/-- The limits in force; those of the environment are settled if none are. -/
def useLimits (session : Session) : Logged (Limits × Session) :=
  match session.limits with
  | some limits => .silent (limits, session)
  | none => do
      let limits ← Limits.ofEnvironment session.environment
      return (limits, { session with limits := some limits })

/-- The decoder in force: first its table is settled, then its limits. -/
def useDecoder (session : Session) : Logged (Decoder × Session) := do
  let (table, session) ← session.useTable
  let (limits, session) ← session.useLimits
  return (⟨table, limits⟩, session)

/-- Put a descriptor set in force. Its table is built in any case; it is settled
if none is, and accepted if it is the one in force. -/
def install (session : Session) (descriptors : List Descriptor) : Logged (Answer × Session) := do
  match ← Table.demand descriptors with
  | .error cause => return (.aborted cause, session)
  | .ok table =>
      match session.table with
      | none => return (.installed table, { session with table := some table })
      | some current =>
          if current = table then return (.installed current, session)
          else
            Logged.report .installConflict
            return (.aborted .tableConflict, session)

def answer (session : Session) : Request → Logged (Answer × Session)
  | .install descriptors => session.install descriptors
  | .describe => do
      let (table, session) ← session.useTable
      return (.table table, session)
  | .lookup opcode => do
      let (table, session) ← session.useTable
      return (.encoding (table.lookup opcode), session)
  | .decode script position => do
      let (decoder, session) ← session.useDecoder
      return (.decoded (← decoder.decodeLogged script position), session)
  | .walk script => do
      let (decoder, session) ← session.useDecoder
      return (.walked (← decoder.walk script), session)
  | .limits => do
      let (decoder, session) ← session.useDecoder
      return (.limits decoder.limits, session)
  | .readEnvironment => do
      return (.environmentLimits (← Limits.ofEnvironment session.environment), session)
  | .setEnvironment value => return (.environmentSet, { session with environment := value })

/-- Answer requests in order; the session after them comes with the answers. -/
def answerAll (session : Session) : List Request → Logged (List Answer × Session)
  | [] => return ([], session)
  | request :: rest => do
      let (first, session) ← session.answer request
      let (others, session) ← session.answerAll rest
      return (first :: others, session)

end Session

end Bytecode
