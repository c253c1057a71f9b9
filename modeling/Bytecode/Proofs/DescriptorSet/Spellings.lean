import Bytecode.Proofs.DescriptorSet.Document

/-! # Documents read from any of their texts

A reader that meets a text of a document gathers the members of each element as they come, up
to the first that cannot be added, whatever blanks stand between the tokens and whatever is
written in the members of other names (`Reader.toOption_run_member`,
`Reader.toOption_run_element`). What separates members and what separates elements is the same
comma, so one lemma goes through both lists (`Reader.toOption_run_separated`). All texts of a
document lead to the same table, or none of them leads to one
(`load_reads_or_refuses_every_spelling`).
-/

namespace Bytecode.DescriptorSet

theorem toOption_bind {ε α β : Type} (first : Except ε α) (next : α → Except ε β) :
    (first >>= next).toOption = first.toOption.bind fun value => (next value).toOption := by
  cases first <;> rfl

/-! ## Ends of values -/

/-- A text whose first character ends each number in front of it. -/
inductive Closes : List Char → Prop where
  | intro {char : Char} {rest : List Char} :
      Json.Numeral.endsWhole char = true → Closes (char :: rest)

theorem Spread.closes {char : Char} {tokens : List (List Char)} {text : List Char}
    (spread : Spread ([char] :: tokens) text) (ends : Json.Numeral.endsWhole char = true)
    (rest : List Char) : Closes (text ++ rest) := by
  cases spread with
  | @cons _ _ blanks _ blank _ =>
      cases blanks with
      | nil => exact .intro ends
      | cons first others =>
          exact .intro (Json.Numeral.endsWhole_of_isBlank (blank first List.mem_cons_self))

/-! ## Places -/

namespace Place

/-- A blank changes nothing at the place. -/
inductive Idle : Place → Prop where
  | beforeSet : Idle .beforeSet
  | firstElement : Idle .firstElement
  | element : Idle .element
  | afterElement : Idle .afterElement
  | afterSet : Idle .afterSet
  | firstKey : Idle .firstKey
  | key (fields : Fields) : Idle (.key fields)
  | colon (fields : Fields) (found : Option Field) : Idle (.colon fields found)
  | value (form : Form) (fields : Fields) (field : Field) : Idle (.value form fields field)
  | skipped (fields : Fields) : Idle (.skipped fields .start)
  | afterMember (fields : Fields) : Idle (.afterMember fields)

theorem AwaitsKey.idle {place : Place} {fields : Fields} (awaits : place.AwaitsKey fields) :
    place.Idle := by
  cases awaits with
  | first => exact .firstKey
  | next => exact .key fields

theorem AwaitsElement.idle {place : Place} (awaits : place.AwaitsElement) : place.Idle := by
  cases awaits with
  | first => exact .firstElement
  | next => exact .element

/-- The place behind the colon of a member. -/
def afterColon (fields : Fields) : Option Field → Place
  | some field => .value .keyed fields field
  | none => .skipped fields .start

end Place

theorem Field.ofName?_eq_none {name : String} (unknown : ∀ field : Field, field.name ≠ name) :
    ofName? name = none := by
  rw [ofName?, List.find?_eq_none]
  intro field _
  simpa using unknown field

namespace Reader

variable {completed : List Descriptor} {place : Place} {fields : Fields} {text rest : List Char}

/-! ## Blanks -/

theorem step_of_isBlank (idle : place.Idle) {char : Char} (blank : Json.isBlank char = true) :
    step ⟨completed, place⟩ char = .ok ⟨completed, place⟩ := by
  cases idle with
  | value =>
      simp only [step, beforeValue, blank, if_true]
      rfl
  | skipped =>
      simp only [step, Json.Skipped.step, Json.Skipped.start, blank, if_true]
      rfl
  | afterMember =>
      simp only [step, afterMember, blank, if_true]
      rfl
  | _ => simp only [step, blank, if_true]

theorem run_blanks (idle : place.Idle) {blanks : List Char}
    (blank : ∀ char ∈ blanks, Json.isBlank char = true) :
    run ⟨completed, place⟩ (blanks ++ rest) = run ⟨completed, place⟩ rest := by
  induction blanks with
  | nil => rfl
  | cons char others ih =>
      obtain ⟨first, later⟩ := List.forall_mem_cons.mp blank
      rw [List.cons_append, run_cons_of_step (step_of_isBlank idle first), ih later]

theorem run_of_blank (idle : place.Idle) {blanks : List Char}
    (blank : ∀ char ∈ blanks, Json.isBlank char = true) :
    run ⟨completed, place⟩ blanks = .ok ⟨completed, place⟩ := by
  have passed : run ⟨completed, place⟩ (blanks ++ []) = run ⟨completed, place⟩ [] :=
    run_blanks idle blank
  rwa [List.append_nil] at passed

/-- The blanks in front of a token are passed over. -/
theorem exists_run_token (completed : List Descriptor) (idle : place.Idle) {token : List Char}
    {tokens : List (List Char)} (spread : Spread (token :: tokens) text) :
    ∃ later, Spread tokens later ∧ ∀ rest,
      run ⟨completed, place⟩ (text ++ rest) =
        run ⟨completed, place⟩ (token ++ (later ++ rest)) := by
  cases spread with
  | @cons _ _ blanks later blank others =>
      refine ⟨later, others, fun rest => ?_⟩
      rw [List.append_assoc, List.append_assoc, run_blanks idle blank]

/-- The last token of a text. -/
theorem run_token (idle : place.Idle) {token : List Char} (spread : Spread [token] text) :
    run ⟨completed, place⟩ (text ++ rest) = run ⟨completed, place⟩ (token ++ rest) := by
  obtain ⟨later, none, same⟩ := exists_run_token completed idle spread
  cases none
  exact same rest

/-! ## Items with commas between them -/

/-- **Items are read one after the other.** What has been read of them is a state; each item
takes it to the next state or is a problem, and behind an item a comma makes the reader await
another one. -/
theorem toOption_run_separated {σ ι : Type} (tokens : ι → List (List Char))
    (add? : σ → ι → Option σ) (completed : σ → List Descriptor) (awaits : Place → σ → Prop)
    (behind : σ → Place)
    (reads : ∀ {place : Place} {state : σ} {item : ι} {text rest : List Char},
      awaits place state → Spread (tokens item) text → Closes rest →
        (run ⟨completed state, place⟩ (text ++ rest)).toOption =
          (add? state item).bind fun later =>
            (run ⟨completed later, behind later⟩ rest).toOption)
    (separates : ∀ state, (behind state).Idle ∧ ∃ next, awaits next state ∧
      step ⟨completed state, behind state⟩ ',' = .ok ⟨completed state, next⟩)
    (state : σ) (ready : awaits place state) {items : List ι} (nonempty : items ≠ [])
    (spread : Spread ([[',']].intercalate (items.map tokens)) text) (closes : Closes rest) :
    (run ⟨completed state, place⟩ (text ++ rest)).toOption =
      (items.foldlM add? state).bind fun later =>
        (run ⟨completed later, behind later⟩ rest).toOption := by
  induction items generalizing place state text with
  | nil => exact absurd rfl nonempty
  | cons item others ih =>
      rw [List.foldlM_cons]
      cases others with
      | nil =>
          rw [List.map_singleton, List.intercalate_singleton] at spread
          rw [reads ready spread closes]
          cases add? state item <;> rfl
      | cons second others =>
          rw [List.map_cons, List.map_cons, List.intercalate_cons_cons, List.append_assoc] at spread
          obtain ⟨own, apart, spreadOwn, spreadApart, rfl⟩ := spread.exists_append
          rw [List.append_assoc, reads ready spreadOwn (spreadApart.closes rfl rest)]
          cases add? state item with
          | none => rfl
          | some middle =>
              obtain ⟨idle, next, readyNext, stepped⟩ := separates middle
              obtain ⟨later, spreadLater, runComma⟩ :=
                exists_run_token (completed middle) idle spreadApart
              rw [Option.bind_some, runComma, List.singleton_append, run_cons_of_step stepped,
                ih middle readyNext (List.cons_ne_nil _ _) spreadLater]
              rfl

/-! ## Values -/

theorem toOption_store_whole (fields : Fields) (field : Field) (value : Int) :
    (fields.store field (.whole value)).toOption =
      if field.Fits value then some (fields.set value.toNat field) else none := by
  rw [Fields.store_whole]
  change (if field.Fits value then _ else _ : Except Problem Fields).toOption = _
  split <;> rfl

/-- A number is stored exactly if it fits the field, whether 64 bits hold it or not. -/
theorem toOption_store {numeral : Json.Numeral} {value : Int} (reads : numeral.Reads value)
    (fields : Fields) (field : Field) :
    (liftDefect numeral.value >>= fields.store field).toOption =
      if field.Fits value then some (fields.set value.toNat field) else none := by
  have whole (fits : field.Fits value) : numeral.value = .ok (.whole value) := by
    have range : (field.range : Int) ≤ Nat.pow 2 64 := Int.ofNat_le.mpr field.range_le
    exact reads.value_eq fits.1 (Int.lt_of_lt_of_le fits.2 range)
  cases read : numeral.value with
  | ok number =>
      cases number with
      | whole other =>
          rw [reads.eq_of_value other read]
          exact toOption_store_whole fields field value
      | double negative magnitude =>
          rw [if_neg fun fits => nomatch read.symm.trans (whole fits)]
          rfl
  | error defect =>
      rw [if_neg fun fits => nomatch read.symm.trans (whole fits)]
      rfl

/-- **The number of a field**, up to the character that ends it. -/
theorem toOption_run_decimal (field : Field) (value : Int) (closes : Closes rest) :
    (run ⟨completed, .value .keyed fields field⟩ (Json.decimal value ++ rest)).toOption =
      if field.Fits value then
        (run ⟨completed, .afterMember (fields.set value.toNat field)⟩ rest).toOption
      else none := by
  obtain ⟨numeral, spells, reads⟩ := Json.Numeral.exists_spells_decimal value
  obtain @⟨char, tail, ends⟩ := closes
  have ended : step ⟨completed, .number .keyed fields field numeral⟩ char =
      (liftDefect numeral.value >>= fields.store field) >>= fun fields =>
        step ⟨completed, .afterMember fields⟩ char := by
    simp only [step, inNumber, Json.Numeral.step_of_complete reads.complete ends]
    rw [bind_assoc]
    rfl
  rw [run_append_of_run (run_numeral completed .keyed fields field spells), run_cons, ended,
    bind_assoc, toOption_bind, toOption_store reads]
  split
  · rw [Option.bind_some, ← run_cons]
  · rfl

/-- **A value that nobody asked for** is passed over, up to the character that ends it. -/
theorem run_passed {value : Json.Skipped} {written : List Char} (passes : value.Passes written)
    (closes : Closes rest) :
    run ⟨completed, .skipped fields value⟩ (written ++ rest) =
      run ⟨completed, .afterMember fields⟩ rest := by
  induction passes with
  | last stepped =>
      refine run_cons_of_step ?_ rest
      simp only [step, stepped]
      rfl
  | past ended =>
      obtain @⟨char, tail, ends⟩ := closes
      rw [List.nil_append, run_cons, run_cons]
      simp only [step, ended char ends]
      rfl
  | more stepped _ ih =>
      refine (run_cons_of_step ?_ _).trans ih
      simp only [step, stepped]
      rfl

/-! ## Members -/

/-- A key with its colon, up to the value behind them. -/
theorem exists_run_colon (awaits : place.AwaitsKey fields) {name : String}
    (plain : ∀ char ∈ name.toList, Json.isPlain char = true) {found : Option Field}
    (closed : closeKey ⟨completed, place⟩ fields name = .ok ⟨completed, .colon fields found⟩)
    {tokens : List (List Char)} (spread : Spread (keyToken name :: [':'] :: tokens) text) :
    ∃ later, Spread tokens later ∧ ∀ rest,
      run ⟨completed, place⟩ (text ++ rest) =
        run ⟨completed, .afterColon fields found⟩ (later ++ rest) := by
  have key : run ⟨completed, place⟩ (keyToken name) = .ok ⟨completed, .colon fields found⟩ :=
    (run_key awaits plain).trans closed
  have colon : run ⟨completed, .colon fields found⟩ [':'] =
      .ok ⟨completed, .afterColon fields found⟩ := by
    cases found <;> rfl
  obtain ⟨afterKey, spreadColon, runKey⟩ := exists_run_token completed awaits.idle spread
  obtain ⟨later, spreadLater, runColon⟩ :=
    exists_run_token completed (.colon fields found) spreadColon
  refine ⟨later, spreadLater, fun rest => ?_⟩
  rw [runKey, run_append_of_run key, runColon, run_append_of_run colon]

/-- **A member** is added to the fields, or it is a problem. -/
theorem toOption_run_member (awaits : place.AwaitsKey fields) {member : Member}
    (spread : Spread member.tokens text) (closes : Closes rest) :
    (run ⟨completed, place⟩ (text ++ rest)).toOption =
      (fields.add? member).bind fun fields =>
        (run ⟨completed, .afterMember fields⟩ rest).toOption := by
  cases member with
  | known field value =>
      by_cases read : fields.has field = true
      · have repeated : run ⟨completed, place⟩ (keyToken field.name) =
            .error (.repeatedField field) := by
          refine (run_key awaits field.isPlain_name).trans ?_
          rw [closeKey, field.ofName?_name]
          simp only [read, if_true]
        obtain ⟨later, _, runKey⟩ := exists_run_token completed awaits.idle spread
        rw [runKey, run_append, repeated, Fields.add?, if_pos read]
        rfl
      · have closed : closeKey ⟨completed, place⟩ fields field.name =
            .ok ⟨completed, .colon fields (some field)⟩ := by
          rw [closeKey, field.ofName?_name]
          simp only [read]
          rfl
        obtain ⟨later, spreadValue, runKey⟩ :=
          exists_run_colon awaits field.isPlain_name closed spread
        rw [runKey, Place.afterColon, run_token (.value .keyed fields field) spreadValue,
          toOption_run_decimal field value closes, Fields.add?, if_neg read]
        split <;> rfl
  | foreign name value plain unknown scalar =>
      have closed : closeKey ⟨completed, place⟩ fields name =
          .ok ⟨completed, .colon fields none⟩ := by
        rw [closeKey, Field.ofName?_eq_none unknown]
        rfl
      obtain ⟨later, spreadValue, runKey⟩ := exists_run_colon awaits plain closed spread
      rw [runKey, Place.afterColon, run_token (.skipped fields) spreadValue,
        run_passed scalar.passes closes]
      rfl

/-! ## Elements -/

/-- **The members of an element** are added to the fields as long as they can be. -/
theorem toOption_run_members (awaits : place.AwaitsKey fields) {members : List Member}
    (nonempty : members ≠ [])
    (spread : Spread ([[',']].intercalate (members.map Member.tokens)) text)
    (closes : Closes rest) :
    (run ⟨completed, place⟩ (text ++ rest)).toOption =
      (members.foldlM Fields.add? fields).bind fun fields =>
        (run ⟨completed, .afterMember fields⟩ rest).toOption := by
  have separates (fields : Fields) : (Place.afterMember fields).Idle ∧
      ∃ next, Place.AwaitsKey next fields ∧
        step ⟨completed, .afterMember fields⟩ ',' = .ok ⟨completed, next⟩ :=
    ⟨.afterMember fields, .key fields, .next fields, step_afterMember_comma completed fields⟩
  exact toOption_run_separated Member.tokens Fields.add? (fun _ => completed) Place.AwaitsKey
    Place.afterMember (fun awaits spread closes => toOption_run_member awaits spread closes)
    separates fields awaits nonempty spread closes

theorem toOption_run_afterMember_brace :
    (run ⟨completed, .afterMember fields⟩ ('\x7d' :: rest)).toOption =
      fields.descriptor.toOption.bind fun descriptor =>
        (run ⟨descriptor :: completed, .afterElement⟩ rest).toOption := by
  have closed : step ⟨completed, .afterMember fields⟩ '\x7d' =
      complete ⟨completed, .afterMember fields⟩ fields := rfl
  rw [run_cons, closed, complete]
  cases fields.descriptor <;> rfl

/-- **An element** comes to its descriptor, or there is a problem in it. -/
theorem toOption_run_element (awaits : place.AwaitsElement) {element : Element}
    (spread : Spread element.tokens text) :
    (run ⟨completed, place⟩ (text ++ rest)).toOption =
      element.descriptor?.bind fun descriptor =>
        (run ⟨descriptor :: completed, .afterElement⟩ rest).toOption := by
  have opened : step ⟨completed, place⟩ '\x7b' = .ok ⟨completed, .firstKey⟩ := by
    cases awaits <;> rfl
  obtain ⟨inner, spreadInner, runBrace⟩ := exists_run_token completed awaits.idle spread
  rw [runBrace, List.singleton_append, run_cons_of_step opened]
  cases element with
  | nil =>
      rw [run_token .firstKey spreadInner]
      rfl
  | cons member others =>
      obtain ⟨members, brace, spreadMembers, spreadBrace, rfl⟩ := spreadInner.exists_append
      rw [List.append_assoc, toOption_run_members .first (List.cons_ne_nil _ _) spreadMembers
        (spreadBrace.closes rfl rest), Element.descriptor?, Option.bind_assoc]
      congr 1
      funext fields
      rw [run_token (.afterMember fields) spreadBrace]
      exact toOption_run_afterMember_brace

/-- **The elements of a document** come to their descriptors as long as there is no problem in
them. -/
theorem toOption_run_elements (awaits : place.AwaitsElement) {document : Document}
    (nonempty : document ≠ [])
    (spread : Spread ([[',']].intercalate (document.map Element.tokens)) text)
    (closes : Closes rest) :
    (run ⟨completed, place⟩ (text ++ rest)).toOption =
      document.descriptors?.bind fun descriptors =>
        (run ⟨descriptors.reverse ++ completed, .afterElement⟩ rest).toOption := by
  have reads {place : Place} {completed : List Descriptor} {element : Element}
      {text rest : List Char} (awaits : place.AwaitsElement) (spread : Spread element.tokens text)
      (_ : Closes rest) : (run ⟨completed, place⟩ (text ++ rest)).toOption =
        (element.descriptor?.map (· :: completed)).bind fun completed =>
          (run ⟨completed, .afterElement⟩ rest).toOption := by
    rw [toOption_run_element awaits spread]
    cases element.descriptor? <;> rfl
  have separates (completed : List Descriptor) : Place.afterElement.Idle ∧
      ∃ next, Place.AwaitsElement next ∧
        step ⟨completed, .afterElement⟩ ',' = .ok ⟨completed, next⟩ :=
    ⟨.afterElement, .element, .next, rfl⟩
  have read := toOption_run_separated Element.tokens
    (fun completed element => element.descriptor?.map (· :: completed)) (fun completed => completed)
    (fun place _ => place.AwaitsElement) (fun _ => .afterElement) reads separates completed awaits
    nonempty spread closes
  rw [read, Document.foldlM_eq]
  cases document.descriptors? <;> rfl

/-- The bracket that closes the set, with the blanks behind it. -/
theorem run_closing (idle : place.Idle)
    (closed : step ⟨completed, place⟩ ']' = .ok ⟨completed, .afterSet⟩)
    (spread : Spread [[']']] text) {blanks : List Char}
    (blank : ∀ char ∈ blanks, Json.isBlank char = true) :
    run ⟨completed, place⟩ (text ++ blanks) = .ok ⟨completed, .afterSet⟩ := by
  rw [run_token idle spread, List.singleton_append, run_cons_of_step closed,
    run_of_blank .afterSet blank]

end Reader

/-! ## Documents -/

/-- **A document comes to its descriptors**, or there is a problem in each of its texts. -/
theorem toOption_read {document : Document} {text : List Char} (spelled : document.SpelledBy text) :
    (read text).toOption = document.descriptors? := by
  obtain ⟨front, blanks, spread, blank, rfl⟩ := spelled
  have opened : Reader.start.run ['['] = .ok ⟨[], .firstElement⟩ := rfl
  obtain ⟨inner, spreadInner, runBracket⟩ := Reader.exists_run_token [] .beforeSet spread
  have begun : Reader.start.run (front ++ blanks) =
      Reader.run ⟨[], .firstElement⟩ (inner ++ blanks) :=
    (runBracket blanks).trans (Reader.run_append_of_run opened _)
  rw [read, toOption_bind, begun]
  cases document with
  | nil =>
      rw [Reader.run_closing .firstElement rfl spreadInner blank]
      rfl
  | cons element others =>
      obtain ⟨elements, bracket, spreadElements, spreadBracket, rfl⟩ := spreadInner.exists_append
      rw [List.append_assoc, Reader.toOption_run_elements .first (List.cons_ne_nil _ _)
        spreadElements (spreadBracket.closes rfl blanks)]
      cases Document.descriptors? (element :: others) with
      | none => rfl
      | some descriptors =>
          rw [Option.bind_some, Reader.run_closing .afterElement rfl spreadBracket blank,
            List.append_nil]
          exact congrArg some descriptors.reverse_reverse

theorem load_of_descriptors?_eq_some {document : Document} {text : List Char}
    {descriptors : List Descriptor} (gathered : document.descriptors? = some descriptors)
    (spelled : document.SpelledBy text) : Table.load text = Table.build descriptors := by
  rw [← toOption_read spelled] at gathered
  cases found : read text with
  | ok listed =>
      rw [found] at gathered
      cases gathered
      exact Table.load_of_read_eq_ok found
  | error problem =>
      rw [found] at gathered
      cases gathered

theorem load_of_descriptors?_eq_none {document : Document} {text : List Char}
    (refused : document.descriptors? = none) (spelled : document.SpelledBy text) :
    ∃ problem, Table.load text = .silent (.error (.descriptorSet problem)) := by
  rw [← toOption_read spelled] at refused
  cases found : read text with
  | ok listed =>
      rw [found] at refused
      cases refused
  | error problem => exact ⟨problem.message, Table.load_of_read_eq_error found⟩

/-- **All texts of a document are read alike.** If no element of it is faulty, each is listed by a
descriptor, and whatever the spelling the table is the one built from these descriptors, or
fails as the building does, with the same reports. If an element is faulty, wherever it
stands, each text of the document is refused for a problem in the text, without any report,
whatever the table would have made of the elements in front of it. -/
theorem load_reads_or_refuses_every_spelling (document : Document) :
    ((∀ element ∈ document, ¬ element.Faulty) →
      ∃ descriptors, List.Forall₂ Element.Lists document descriptors ∧
        ∀ text, document.SpelledBy text → Table.load text = Table.build descriptors) ∧
    ((∃ element ∈ document, element.Faulty) →
      ∀ text, document.SpelledBy text →
        ∃ problem, Table.load text = .silent (.error (.descriptorSet problem))) := by
  constructor
  · intro faultless
    cases gathered : document.descriptors? with
    | none =>
        obtain ⟨element, member, faulty⟩ := Document.exists_faulty_of_descriptors?_eq_none gathered
        exact absurd faulty (faultless element member)
    | some descriptors =>
        have lists := (Document.lists_of_descriptors?_eq_some gathered).1
        exact ⟨descriptors, lists, fun _ => load_of_descriptors?_eq_some gathered⟩
  · rintro ⟨element, member, faulty⟩ text
    refine load_of_descriptors?_eq_none ?_
    cases gathered : document.descriptors? with
    | none => rfl
    | some descriptors =>
        have faultless := (Document.lists_of_descriptors?_eq_some gathered).2
        exact absurd faulty (faultless element member)

/-- A jump with its size in front of its opcode and a remark between them. -/
def jumpDocument : Document :=
  [[.known .fixedSize 2,
    .foreign "note" "null".toList (List.all_eq_true.mp rfl)
      (fun field => by cases field <;> decide) .null,
    .known .opcode 34]]

/-- A descriptor with a malformed width, and an opcode beyond all opcodes behind it. -/
def lateDocument : Document :=
  [[.known .prefixWidth 3, .known .opcode 1], [.known .opcode 18446744073709551872]]

/-- The second element is refused although the table would already fail at the first one. -/
theorem load_reads_or_refuses_every_spelling_of_two :
    (∃ descriptors, List.Forall₂ Element.Lists jumpDocument descriptors ∧
      Table.load
          " [ \x7b \"fixed_size\" : 2 , \"note\" : null , \"opcode\" : 34 \x7d ] ".toList =
        Table.build descriptors) ∧
    ∃ problem, Table.load
      "[\x7b\"prefix_width\":3,\"opcode\":1\x7d,\x7b\"opcode\":18446744073709551872\x7d]".toList =
        .silent (.error (.descriptorSet problem)) := by
  have gathered : jumpDocument.descriptors? = some [⟨.ofNat 34, 0, 2⟩] := by decide
  have faultless := (Document.lists_of_descriptors?_eq_some gathered).2
  obtain ⟨descriptors, lists, same⟩ :=
    (load_reads_or_refuses_every_spelling jumpDocument).1 faultless
  have faulty : ∃ element ∈ lateDocument, element.Faulty :=
    ⟨_, List.mem_of_getLast? rfl, .outOfRange .opcode 18446744073709551872 (by decide) (by decide)⟩
  have refused := (load_reads_or_refuses_every_spelling lateDocument).2 faulty
  have spaced : jumpDocument.SpelledBy (jumpDocument.spaced [' ']) :=
    jumpDocument.spelledBy_spaced (List.all_eq_true.mp rfl)
  have dense : lateDocument.SpelledBy (lateDocument.spaced []) :=
    lateDocument.spelledBy_spaced nofun
  have spacedText : jumpDocument.spaced [' '] =
      " [ \x7b \"fixed_size\" : 2 , \"note\" : null , \"opcode\" : 34 \x7d ] ".toList := by decide
  have denseText : lateDocument.spaced [] = String.toList
      "[\x7b\"prefix_width\":3,\"opcode\":1\x7d,\x7b\"opcode\":18446744073709551872\x7d]" := by
    decide
  rw [spacedText] at spaced
  rw [denseText] at dense
  exact ⟨⟨descriptors, lists, same _ spaced⟩, refused _ dense⟩

end Bytecode.DescriptorSet
