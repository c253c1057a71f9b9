import Bytecode.Encoding
import Bytecode.Fault
import Bytecode.Numeral

/-! # Events

What the library reports while it works. An event records a cause; its level,
sentence and named fields are derived from it.
-/

namespace Bytecode

/-- The environment setting that holds the operand length limit. -/
def limitSetting : String := "OPSTREAM_MAX_OPERAND_LEN"

/-- How loud an event is. -/
inductive Level where
  | trace
  | debug
  | warn
  | error
  deriving DecidableEq

def Level.name : Level → String
  | .trace => "TRACE"
  | .debug => "DEBUG"
  | .warn => "WARN"
  | .error => "ERROR"

/-- Something worth reporting. -/
inductive Event where
  /-- A table was built from so many descriptors, with so many stored lengths. -/
  | tableBuilt (descriptors prefixedEntries : Nat)
  /-- A later descriptor replaced the different encoding of an earlier one. -/
  | encodingReplaced (opcode : Opcode) (previous replacement : Encoding)
  /-- A descriptor set that had to be well formed was not. -/
  | setRejected (fault : Fault)
  /-- The table in force differs from the one to be installed. -/
  | installConflict
  /-- The limit setting holds no numeral. -/
  | limitIgnored (value : String) (reason : Numeral.Error)
  /-- No instruction could be decoded at a position. -/
  | instructionRejected (position : Nat) (opcode : Option Opcode) (fault : Fault)
  deriving DecidableEq

/-- The value of a named field of an event. -/
inductive Event.Field where
  | number (value : Nat)
  | text (value : String)
  deriving DecidableEq

namespace Event

def level : Event → Level
  | .tableBuilt .. => .debug
  | .encodingReplaced .. | .limitIgnored .. => .warn
  | .setRejected _ | .installConflict => .error
  | .instructionRejected .. => .trace

def message : Event → String
  | .tableBuilt .. => "operand encoding table built"
  | .encodingReplaced .. => "duplicate operand descriptor, keeping the last one"
  | .setRejected _ => "descriptor set rejected"
  | .installConflict => "global encoding table already built from a different descriptor set"
  | .limitIgnored .. => "ignoring invalid operand length limit"
  | .instructionRejected .. => "rejected instruction"

def details : Event → List (String × Field)
  | .tableBuilt descriptors prefixedEntries =>
      [("descriptors", .number descriptors), ("prefixed", .number prefixedEntries)]
  | .encodingReplaced opcode previous replacement =>
      [("opcode", .number opcode.toNat), ("previous", .text previous.inspect),
        ("replacement", .text replacement.inspect)]
  | .setRejected fault => [("error", .text fault.message)]
  | .installConflict => []
  | .limitIgnored value reason =>
      [("var", .text limitSetting), ("value", .text value), ("error", .text reason.message)]
  | .instructionRejected position opcode fault =>
      let found := match opcode with
        | none => "None"
        | some opcode => "Some(" ++ toString opcode.toNat ++ ")"
      [("ip", .number position), ("opcode", .text found), ("error", .text fault.message)]

/-- The event's sentence and details, each under its name. -/
def fields (event : Event) : List (String × Field) :=
  ("message", .text event.message) :: event.details

end Event

end Bytecode
