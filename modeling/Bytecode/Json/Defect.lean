/-! # Defects of JSON text

Ways in which a text fails to be JSON, whatever is looked for in it.
-/

namespace Bytecode.Json

/-- How a text fails to be JSON. -/
inductive Defect where
  /-- The text ends where a value has to stand or go on. -/
  | endInValue
  | endInList
  | endInObject
  | endInString
  | valueExpected
  /-- A word that is neither `null` nor `true` nor `false`. -/
  | wordExpected
  | commaOrBracketExpected
  | commaOrBraceExpected
  | colonExpected
  /-- Something other than a string where a key has to stand. -/
  | keyExpected
  | trailingComma
  | trailingCharacters
  | controlCharacter
  | invalidEscape
  /-- The second half of a surrogate pair without its first half, or a first
  half followed by another. -/
  | loneSurrogate
  /-- The first half of a surrogate pair not followed by an escape. -/
  | cutSurrogatePair
  | invalidNumber
  /-- A number beyond all finite numbers of double precision. -/
  | numberOutOfRange
  deriving DecidableEq

def Defect.message : Defect → String
  | .endInValue => "EOF while parsing a value"
  | .endInList => "EOF while parsing a list"
  | .endInObject => "EOF while parsing an object"
  | .endInString => "EOF while parsing a string"
  | .valueExpected => "expected value"
  | .wordExpected => "expected ident"
  | .commaOrBracketExpected => "expected `,` or `]`"
  | .commaOrBraceExpected => "expected `,` or `\x7d`"
  | .colonExpected => "expected `:`"
  | .keyExpected => "key must be a string"
  | .trailingComma => "trailing comma"
  | .trailingCharacters => "trailing characters"
  | .controlCharacter => "control character (\\u0000-\\u001F) found while parsing a string"
  | .invalidEscape => "invalid escape"
  | .loneSurrogate => "lone leading surrogate in hex escape"
  | .cutSurrogatePair => "unexpected end of hex escape"
  | .invalidNumber => "invalid number"
  | .numberOutOfRange => "number out of range"

/-- Whether a character may stand between the parts of a JSON text. -/
def isBlank (char : Char) : Bool :=
  char = ' ' || char = '\t' || char = '\n' || char = '\r'

/-- What one character does to the reader of a part of a text. -/
inductive Progress (σ : Type) (α : Type) where
  | more (state : σ)
  /-- The character was the last of the part. -/
  | last (value : α)
  /-- The part had ended before the character. -/
  | past (value : α)

end Bytecode.Json
