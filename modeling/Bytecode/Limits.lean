import Bytecode.Logged
import Bytecode.Text.Blank

/-! # Limits

A decoder accepts operands up to a length. The limit has a standard value and
can be taken from an environment setting; a setting that holds no numeral is
reported and leaves the standard value in force.
-/

namespace Bytecode

/-- What a decoder refuses to go beyond. -/
structure Limits where
  /-- The longest operand accepted, however its length is stated. -/
  operandLength : UInt32
  deriving DecidableEq

namespace Limits

/-- The standard limits: a stored length with its highest bit set is never accepted. -/
def standard : Limits := ⟨0x7fffffff⟩

/-- The limits that a setting asks for; blanks around the numeral do not count. -/
def ofSetting : Option String → Logged Limits
  | none => .silent standard
  | some value =>
      match Numeral.read (Text.trim value.toList) with
      | .ok length => .silent ⟨length⟩
      | .error reason => ⟨standard, [.limitIgnored value reason]⟩

/-- The limits that the bytes of an environment setting ask for. Bytes that are
no UTF-8 text count as no setting. -/
def ofEnvironment (setting : Option Bytes) : Logged Limits :=
  ofSetting (setting.bind fun bytes => String.fromUTF8? ⟨bytes.toArray⟩)

end Limits

end Bytecode
