/-! # Blank characters

The characters of the Unicode property White_Space, and text without them at
its two ends.
-/

namespace Bytecode.Text

/-- The characters of the property White_Space, in ascending order. -/
def blanks : List Char :=
  ['\t', '\n', '\x0b', '\x0c', '\r', ' ', '\x85', '\xa0', '\u1680', '\u2000', '\u2001', '\u2002',
    '\u2003', '\u2004', '\u2005', '\u2006', '\u2007', '\u2008', '\u2009', '\u200a', '\u2028',
    '\u2029', '\u202f', '\u205f', '\u3000']

def isBlank (char : Char) : Bool := blanks.contains char

theorem isBlank_iff (char : Char) : isBlank char = true ↔ char ∈ blanks := by
  simp [isBlank]

/-- The text between the first and the last character that is not blank. -/
def trim (text : List Char) : List Char :=
  ((text.dropWhile isBlank).reverse.dropWhile isBlank).reverse

end Bytecode.Text
