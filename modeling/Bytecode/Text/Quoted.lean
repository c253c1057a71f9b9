import Bytecode.Text.Digit
import Bytecode.Text.Unprintable

/-! # Quoted text

Text inside a message stands between double quotes. Quotes and backslashes are
marked by a backslash, the usual controls have a letter, and other unprintable
characters are written by number. Apostrophes stand for themselves.
-/

namespace Bytecode.Text

def quoteChar (char : Char) : String :=
  if char = '\x00' then "\\0"
  else if char = '\t' then "\\t"
  else if char = '\r' then "\\r"
  else if char = '\n' then "\\n"
  else if char = '\\' then "\\\\"
  else if char = '"' then "\\\""
  else if isUnprintable char then
    "\\u\x7b" ++ hexadecimal char.toNat ++ "\x7d"
  else char.toString

/-- The text between double quotes. -/
def quote (text : String) : String :=
  "\"" ++ String.join (text.toList.map quoteChar) ++ "\""

end Bytecode.Text
