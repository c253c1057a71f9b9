import Bytecode.Proofs.Table.Description
import Mathlib.Data.List.Forall2

/-! # Tables read off their texts

The text of a table lists opcodes with their encodings, in braces and with commas between
them (`Table.Shows`). The name and the value of each part are set off by brackets that neither
of them contains, so a reader can take the entries off a text one by one
(`Table.takeEntry_eq_some_iff`) and reads a list exactly if the text shows it
(`Table.read?_eq_some_iff`). No text shows two lists, and the one that the text of a table
shows leaves out nothing but opcodes without an operand (`Table.inspect_identifies`).
-/

namespace Bytecode

/-! ## Brackets and numbers -/

namespace Text

/-- A name with a value in brackets. -/
def bracketed (name value : List Char) : List Char := name ++ '(' :: (value ++ [')'])

/-- The text in front of the first mark and the text behind it. -/
def cut? (mark : Char) : List Char → Option (List Char × List Char)
  | [] => none
  | char :: rest =>
      if char = mark then some ([], rest)
      else (cut? mark rest).map fun (front, behind) => (char :: front, behind)

/-- The name and the value at the start of a text, and the text behind their brackets. -/
def takeBracketed (text : List Char) : Option (List Char × List Char × List Char) := do
  let (name, inside) ← cut? '(' text
  let (value, rest) ← cut? ')' inside
  return (name, value, rest)

/-- The number below a bound that has these decimal digits, without leading zeros. -/
def decimal? (bound : Nat) (digits : List Char) : Option Nat :=
  let number := Nat.ofDigitChars 10 digits 0
  if number < bound ∧ digits = Nat.toDigits 10 number then some number else none

variable {mark : Char} {text front behind name value rest digits : List Char} {bound number : Nat}

theorem cut?_append (absent : mark ∉ front) (behind : List Char) :
    cut? mark (front ++ mark :: behind) = some (front, behind) := by
  induction front with
  | nil => exact if_pos rfl
  | cons char front ih =>
      obtain ⟨differs, later⟩ := not_or.mp (mt List.mem_cons.mpr absent)
      rw [List.cons_append, cut?, if_neg (Ne.symm differs), ih later]
      rfl

theorem eq_append_of_cut? (found : cut? mark text = some (front, behind)) :
    text = front ++ mark :: behind := by
  induction text generalizing front with
  | nil => cases found
  | cons char text ih =>
      rw [cut?] at found
      split at found
      · next marked =>
          cases found
          exact congrArg (· :: behind) marked
      · obtain ⟨⟨later, _⟩, cut, parts⟩ := Option.map_eq_some_iff.mp found
        cases parts
        rw [ih cut]
        rfl

theorem takeBracketed_append (unopened : '(' ∉ name) (unclosed : ')' ∉ value)
    (rest : List Char) :
    takeBracketed (bracketed name value ++ rest) = some (name, value, rest) := by
  have parts : bracketed name value ++ rest = name ++ '(' :: (value ++ ')' :: rest) := by
    simp only [bracketed, List.append_assoc, List.cons_append, List.nil_append]
  rw [parts]
  apply Option.bind_eq_some_iff.mpr ⟨_, cut?_append unopened _, _⟩
  exact Option.bind_eq_some_iff.mpr ⟨_, cut?_append unclosed _, rfl⟩

theorem eq_bracketed_append (taken : takeBracketed text = some (name, value, rest)) :
    text = bracketed name value ++ rest := by
  obtain ⟨⟨front, inside⟩, opened, taken⟩ := Option.bind_eq_some_iff.mp taken
  obtain ⟨⟨between, behind⟩, closed, taken⟩ := Option.bind_eq_some_iff.mp taken
  cases taken
  rw [eq_append_of_cut? opened, eq_append_of_cut? closed]
  simp only [bracketed, List.append_assoc, List.cons_append, List.nil_append]

theorem decimal?_toDigits (small : number < bound) :
    decimal? bound (Nat.toDigits 10 number) = some number := by
  simp only [decimal?, Nat.ofDigitChars_ten_toDigits, small, and_self, if_true]

theorem eq_toDigits_of_decimal? (read : decimal? bound digits = some number) :
    number < bound ∧ digits = Nat.toDigits 10 number := by
  obtain ⟨exact, same⟩ := Option.ite_none_right_eq_some.mp read
  cases same
  exact exact

theorem not_mem_toDigits {char : Char} (digitless : char.isDigit = false) (number : Nat) :
    char ∉ Nat.toDigits 10 number := by
  intro member
  rw [Nat.isDigit_of_mem_toDigits (by decide) (by decide) member] at digitless
  cases digitless

theorem dropPrefix?_eq_some_iff : text.dropPrefix? front = some rest ↔ text = front ++ rest := by
  rw [List.dropPrefix?_eq_some_iff]
  constructor
  · rintro ⟨other, split, same⟩
    rw [split, eq_of_beq same]
  · intro split
    exact ⟨front, split, BEq.rfl⟩

theorem toList_append_number (front : String) (number : Nat) :
    (front ++ toString number ++ ")").toList =
      front.toList ++ (Nat.toDigits 10 number ++ [')']) := by
  rw [String.toList_append, String.toList_append, Nat.toString_eq_ofList_toDigits,
    String.toList_ofList, List.append_assoc]
  rfl

end Text

/-! ## Encodings -/

namespace Encoding

/-- **How an encoding is shown**: by the name of its kind, with the size in decimal or the
name of the width as the value. -/
inductive ShownAs : Encoding → List Char → List Char → Prop where
  | fixed (size : UInt32) : (fixed size).ShownAs "Fixed".toList (Nat.toDigits 10 size.toNat)
  | one : (prefixed .one).ShownAs "Prefixed".toList "One".toList
  | two : (prefixed .two).ShownAs "Prefixed".toList "Two".toList
  | four : (prefixed .four).ShownAs "Prefixed".toList "Four".toList

/-- The encoding that a kind and a value show. -/
def ofShown? (kind value : List Char) : Option Encoding :=
  if kind = "Fixed".toList then
    (Text.decimal? (Nat.pow 2 32) value).map fun size => .fixed (.ofNat size)
  else if kind = "Prefixed".toList then
    if value = "One".toList then some (.prefixed .one)
    else if value = "Two".toList then some (.prefixed .two)
    else if value = "Four".toList then some (.prefixed .four)
    else none
  else none

variable {encoding : Encoding} {kind value : List Char}

theorem ShownAs.ofShown?_eq (shown : encoding.ShownAs kind value) :
    ofShown? kind value = some encoding := by
  cases shown with
  | fixed size =>
      rw [ofShown?, if_pos rfl, Text.decimal?_toDigits size.toNat_lt, Option.map_some,
        UInt32.ofNat_toNat]
  | one | two | four => rfl

theorem ofShown?_eq_some_iff :
    ofShown? kind value = some encoding ↔ encoding.ShownAs kind value := by
  refine ⟨fun found => ?_, ShownAs.ofShown?_eq⟩
  unfold ofShown? at found
  split at found
  · next fixed =>
      obtain ⟨size, read, rfl⟩ := Option.map_eq_some_iff.mp found
      obtain ⟨small, rfl⟩ := Text.eq_toDigits_of_decimal? read
      have shown := ShownAs.fixed (.ofNat size)
      rwa [UInt32.toNat_ofNat_of_lt' small, ← fixed] at shown
  · split at found
    · next prefixed =>
        rw [prefixed]
        split at found
        · next one => cases found; rw [one]; exact .one
        · split at found
          · next two => cases found; rw [two]; exact .two
          · split at found
            · next four => cases found; rw [four]; exact .four
            · cases found
    · cases found

theorem ShownAs.bracketless (shown : encoding.ShownAs kind value) :
    '(' ∉ kind ∧ ')' ∉ value := by
  cases shown with
  | fixed size => exact ⟨by decide, Text.not_mem_toDigits rfl _⟩
  | one | two | four => exact ⟨by decide, by decide⟩

theorem exists_shownAs (encoding : Encoding) : ∃ kind value, encoding.ShownAs kind value ∧
    encoding.inspect.toList = Text.bracketed kind value := by
  cases encoding with
  | fixed size => exact ⟨_, _, .fixed size, Text.toList_append_number "Fixed(" size.toNat⟩
  | prefixed width =>
      cases width with
      | one => exact ⟨_, _, .one, rfl⟩
      | two => exact ⟨_, _, .two, rfl⟩
      | four => exact ⟨_, _, .four, rfl⟩

end Encoding

namespace Table

/-! ## Entries -/

/-- **How an entry is shown**: the opcode by its number, a colon, and the encoding. -/
inductive ShowsEntry : List Char → Opcode × Encoding → Prop where
  | intro {opcode : Opcode} {encoding : Encoding} {kind value : List Char}
      (shown : encoding.ShownAs kind value) :
      ShowsEntry (Text.bracketed "OpCode".toList (Nat.toDigits 10 opcode.toNat) ++
        (": ".toList ++ Text.bracketed kind value)) (opcode, encoding)

/-- The entry at the start of a text, and the text behind it. -/
def takeEntry (text : List Char) : Option ((Opcode × Encoding) × List Char) := do
  let (name, number, behind) ← Text.takeBracketed text
  if name = "OpCode".toList then
    let opcode ← Text.decimal? 256 number
    let shown ← behind.dropPrefix? ": ".toList
    let (kind, value, rest) ← Text.takeBracketed shown
    let encoding ← Encoding.ofShown? kind value
    return ((.ofNat opcode, encoding), rest)
  else none

variable {piece text : List Char} {entry : Opcode × Encoding}
  {entries : List (Opcode × Encoding)}

/-- An entry ends at its second closing bracket, whatever stands behind it. -/
theorem ShowsEntry.takeEntry_append (shown : ShowsEntry piece entry) (rest : List Char) :
    takeEntry (piece ++ rest) = some (entry, rest) := by
  obtain @⟨opcode, encoding, kind, value, shown⟩ := shown
  obtain ⟨unopened, unclosed⟩ := shown.bracketless
  have nameless : '(' ∉ "OpCode".toList := by decide
  have first := Text.takeBracketed_append nameless (Text.not_mem_toDigits rfl opcode.toNat)
  have second := Text.takeBracketed_append unopened unclosed rest
  rw [List.append_assoc, List.append_assoc]
  refine Option.bind_eq_some_iff.mpr ⟨_, first _, Option.ite_none_right_eq_some.mpr ⟨rfl, ?_⟩⟩
  refine Option.bind_eq_some_iff.mpr ⟨_, Text.decimal?_toDigits opcode.toNat_lt, ?_⟩
  refine Option.bind_eq_some_iff.mpr ⟨_, Text.dropPrefix?_eq_some_iff.mpr rfl, ?_⟩
  refine Option.bind_eq_some_iff.mpr ⟨_, second, ?_⟩
  refine Option.bind_eq_some_iff.mpr ⟨_, shown.ofShown?_eq, ?_⟩
  rw [Opcode.ofNat_toNat]
  rfl

/-- An entry starts with a letter, so its text is never taken for the end of a list. -/
theorem ShowsEntry.append_ne (shown : ShowsEntry piece entry) (rest : List Char) :
    piece ++ rest ≠ ['\x7d'] := by
  cases shown
  intro same
  exact absurd (List.cons.inj same).1 (by decide)

theorem takeEntry_eq_some_iff {rest : List Char} : takeEntry text = some (entry, rest) ↔
    ∃ piece, ShowsEntry piece entry ∧ text = piece ++ rest := by
  constructor
  · intro taken
    obtain ⟨⟨name, number, behind⟩, first, taken⟩ := Option.bind_eq_some_iff.mp taken
    obtain ⟨rfl, taken⟩ := Option.ite_none_right_eq_some.mp taken
    obtain ⟨opcode, numbered, taken⟩ := Option.bind_eq_some_iff.mp taken
    obtain ⟨shown, colon, taken⟩ := Option.bind_eq_some_iff.mp taken
    obtain ⟨⟨kind, value, after⟩, second, taken⟩ := Option.bind_eq_some_iff.mp taken
    obtain ⟨encoding, read, taken⟩ := Option.bind_eq_some_iff.mp taken
    cases taken
    obtain ⟨small, rfl⟩ := Text.eq_toDigits_of_decimal? numbered
    have piece : ShowsEntry _ (.ofNat opcode, encoding) :=
      .intro (Encoding.ofShown?_eq_some_iff.mp read)
    rw [Opcode.toNat_ofNat small] at piece
    refine ⟨_, piece, ?_⟩
    rw [Text.eq_bracketed_append first, Text.dropPrefix?_eq_some_iff.mp colon,
      Text.eq_bracketed_append second]
    simp only [List.append_assoc]
  · rintro ⟨piece, shown, split⟩
    rw [split]
    exact shown.takeEntry_append rest

/-! ## Lists of entries -/

/-- **How a list of entries is shown**: in braces, with a comma and a blank between them. -/
def Shows (text : List Char) (entries : List (Opcode × Encoding)) : Prop :=
  ∃ pieces, List.Forall₂ ShowsEntry pieces entries ∧
    text = '\x7b' :: (", ".toList.intercalate pieces ++ ['\x7d'])

/-- The entries up to the brace behind the last one. -/
def readEntries? (text : List Char) : Option (List (Opcode × Encoding)) :=
  match _ : takeEntry text with
  | none => none
  | some (entry, rest) =>
      if rest = ['\x7d'] then some [entry]
      else
        match _ : rest.dropPrefix? ", ".toList with
        | none => none
        | some behind => (readEntries? behind).map (entry :: ·)
termination_by text.length
decreasing_by
  -- What is left is shorter by the entry and by the two characters that separate it.
  next taken _ separated =>
    obtain ⟨piece, -, rfl⟩ := takeEntry_eq_some_iff.mp taken
    rw [Text.dropPrefix?_eq_some_iff.mp separated, List.length_append, List.length_append]
    have two : ", ".toList.length = 2 := rfl
    omega

/-- The entries that a text shows. -/
def read? : List Char → Option (List (Opcode × Encoding))
  | '\x7b' :: text => if text = ['\x7d'] then some [] else readEntries? text
  | _ => none

theorem readEntries?_append (shown : ShowsEntry piece entry) (rest : List Char) :
    readEntries? (piece ++ rest) =
      if rest = ['\x7d'] then some [entry]
      else (rest.dropPrefix? ", ".toList).bind fun behind =>
        (readEntries? behind).map (entry :: ·) := by
  have taken := shown.takeEntry_append rest
  rw [readEntries?]
  -- The `match` keeps the equation of what it looks at, so `taken` cannot be rewritten in it.
  split
  · next missing =>
      rw [missing] at taken
      cases taken
  · next found =>
      rw [found] at taken
      cases taken
      congr 1
      cases rest.dropPrefix? ", ".toList <;> rfl

theorem readEntries?_intercalate {pieces : List (List Char)}
    (shown : List.Forall₂ ShowsEntry pieces entries) (present : pieces ≠ []) :
    readEntries? (", ".toList.intercalate pieces ++ ['\x7d']) = some entries := by
  -- The last piece has the brace behind it, every other one a comma and the later pieces.
  induction shown with
  | nil => exact absurd rfl present
  | cons first others ih =>
      cases others with
      | nil => rw [List.intercalate_singleton, readEntries?_append first, if_pos rfl]
      | cons second others =>
          rw [List.intercalate_cons_cons, List.append_assoc, List.append_assoc,
            readEntries?_append first, if_neg nofun, Text.dropPrefix?_eq_some_iff.mpr rfl,
            Option.bind_some, ih (List.cons_ne_nil _ _), Option.map_some]

theorem exists_pieces_of_readEntries? (read : readEntries? text = some entries) :
    ∃ pieces, pieces ≠ [] ∧ List.Forall₂ ShowsEntry pieces entries ∧
      text = ", ".toList.intercalate pieces ++ ['\x7d'] := by
  fun_induction readEntries? text generalizing entries with
  | case1 => cases read
  | case2 text entry taken =>
      cases read
      obtain ⟨piece, shown, rfl⟩ := takeEntry_eq_some_iff.mp taken
      refine ⟨[piece], List.cons_ne_nil _ _, .cons shown .nil, ?_⟩
      rw [List.intercalate_singleton]
  | case3 => cases read
  | case4 text entry rest taken _ behind separated ih =>
      obtain ⟨others, later, rfl⟩ := Option.map_eq_some_iff.mp read
      obtain ⟨piece, shown, rfl⟩ := takeEntry_eq_some_iff.mp taken
      obtain ⟨pieces, present, shownLater, rfl⟩ := ih later
      refine ⟨piece :: pieces, List.cons_ne_nil _ _, .cons shown shownLater, ?_⟩
      rw [Text.dropPrefix?_eq_some_iff.mp separated, List.intercalate_cons_of_ne_nil present,
        List.append_assoc, List.append_assoc]

/-- **A list is read exactly if the text shows it.** -/
theorem read?_eq_some_iff : read? text = some entries ↔ Shows text entries := by
  constructor
  · intro read
    unfold read? at read
    split at read
    · split at read
      · next bare =>
          cases read
          exact ⟨[], .nil, congrArg _ bare⟩
      · obtain ⟨pieces, -, shown, rfl⟩ := exists_pieces_of_readEntries? read
        exact ⟨pieces, shown, rfl⟩
    · cases read
  · rintro ⟨pieces, shown, split⟩
    rw [split, read?]
    cases shown with
    | nil => exact if_pos rfl
    | cons first others =>
        rw [readEntries?_intercalate (.cons first others) (List.cons_ne_nil _ _)]
        apply if_neg
        cases others with
        | nil =>
            rw [List.intercalate_singleton]
            exact first.append_ne _
        | cons second others =>
            rw [List.intercalate_cons_cons, List.append_assoc, List.append_assoc]
            exact first.append_ne _

example : read? "\x7bOpCode(16): Fixed(1), OpCode(32): Prefixed(One)\x7d".toList =
    some [(⟨16⟩, .fixed 1), (⟨32⟩, .prefixed .one)] := by decide +kernel

/-! ## Tables -/

/-- **The entries of a table.** They ascend by opcode, and the opcodes that have one are those
with an operand. -/
structure Lists (table : Table) (entries : List (Opcode × Encoding)) : Prop where
  ascending : entries.Pairwise fun first second => first.1.toNat < second.1.toNat
  mem_iff : ∀ opcode encoding,
    (opcode, encoding) ∈ entries ↔ table.lookup opcode = encoding ∧ encoding ≠ .fixed 0

/-- What a text says about an opcode if it shows a list: there is no operand without an
entry. -/
def encodingShown? (text : List Char) (opcode : Opcode) : Option Encoding :=
  (read? text).map fun entries => (entries.lookup opcode).getD .empty

theorem lists_described (table : Table) : table.Lists table.described where
  ascending := List.pairwise_map.mpr (Opcode.pairwise_all.filter _)
  mem_iff opcode encoding := by
    rw [described, List.mem_map]
    constructor
    · rintro ⟨_, member, same⟩
      cases same
      exact ⟨rfl, of_decide_eq_true (List.mem_filter.mp member).2⟩
    · rintro ⟨rfl, operand⟩
      exact ⟨opcode, List.mem_filter.mpr ⟨Opcode.mem_all _, decide_eq_true operand⟩, rfl⟩

theorem Lists.lookup_eq {table : Table} (lists : table.Lists entries) (opcode : Opcode) :
    (entries.lookup opcode).getD .empty = table.lookup opcode := by
  cases found : entries.lookup opcode with
  | none =>
      by_contra operand
      have listed := (lists.mem_iff opcode _).mpr ⟨rfl, Ne.symm operand⟩
      exact bne_iff_ne.mp (List.lookup_eq_none_iff.mp found _ listed) rfl
  | some encoding =>
      obtain ⟨front, behind, rfl, -⟩ := List.lookup_eq_some_iff.mp found
      exact ((lists.mem_iff opcode encoding).mp List.mem_append_cons_self).1.symm

theorem showsEntry_inspect (opcode : Opcode) (encoding : Encoding) :
    ShowsEntry (opcode.inspect ++ ": " ++ encoding.inspect).toList (opcode, encoding) := by
  obtain ⟨kind, value, shown, same⟩ := encoding.exists_shownAs
  rw [String.toList_append, String.toList_append, Opcode.inspect, Text.toList_append_number,
    same, List.append_assoc]
  exact .intro shown

theorem shows_inspect (table : Table) : Shows table.inspect.toList table.described := by
  refine ⟨table.described.map fun entry =>
    (entry.1.inspect ++ ": " ++ entry.2.inspect).toList, ?_, ?_⟩
  · apply List.forall₂_map_left_iff.mpr
    apply List.forall₂_same.mpr
    intro entry _
    exact showsEntry_inspect entry.1 entry.2
  · rw [inspect, String.toList_append, String.toList_append, String.toList_intercalate,
      List.map_map]
    rfl

theorem read?_inspect (table : Table) : read? table.inspect.toList = some table.described :=
  read?_eq_some_iff.mpr table.shows_inspect

theorem encodingShown?_inspect (table : Table) (opcode : Opcode) :
    encodingShown? table.inspect.toList opcode = some (table.lookup opcode) := by
  rw [encodingShown?, read?_inspect, Option.map_some, table.lists_described.lookup_eq]

/-- **The text of a table identifies it.** Tables have the same text only if they are the same,
whatever lists they were built from. The text shows one list of entries and no other: the one
of the opcodes that have an operand, each once and in ascending order. And the encoding of
every opcode, with its exact size or width, can be read back from the text. -/
theorem inspect_identifies (table : Table) :
    (∀ other : Table, table.inspect = other.inspect ↔ table = other) ∧
    (∃ entries, table.Lists entries ∧
      ∀ shown, Shows table.inspect.toList shown ↔ shown = entries) ∧
    ∀ opcode, encodingShown? table.inspect.toList opcode = some (table.lookup opcode) := by
  refine ⟨fun other => ⟨fun same => ?_, congrArg inspect⟩, ?_, table.encodingShown?_inspect⟩
  · apply ext
    intro opcode
    apply Option.some.inj
    rw [← table.encodingShown?_inspect, same, other.encodingShown?_inspect]
  · refine ⟨table.described, table.lists_described, fun shown => ?_⟩
    rw [← read?_eq_some_iff, read?_inspect, Option.some.injEq, eq_comm]

end Table

end Bytecode
