import Bytecode.Decoder

/-! # Cursors

A cursor stands between two instructions of a script. Each step yields the
instruction that follows and moves past it, or yields the fault met there and
stays for good. A cursor is a value: keeping an old one is all it takes to
return to an earlier place.
-/

namespace Bytecode

/-- What a step of a walk yields. -/
inductive Item where
  | decoded (position : Nat) (instruction : Instruction)
  | rejected (fault : Fault)
  deriving DecidableEq

/-- A place in a script that is being walked. -/
structure Cursor where
  decoder : Decoder
  /-- The bytes passed so far. -/
  position : Nat
  /-- The bytes still ahead. -/
  ahead : Bytes
  /-- Whether a fault was met at this place. -/
  failed : Bool

namespace Cursor

def start (decoder : Decoder) (script : Bytes) : Cursor := ⟨decoder, 0, script, false⟩

/-- The item that the cursor yields and the cursor after it; nothing at the end
of the script or after a fault. -/
def next? (cursor : Cursor) : Option (Logged Item × Cursor) :=
  if cursor.failed || cursor.ahead.isEmpty then none
  else
    let decoded := cursor.decoder.takeInstruction cursor.position cursor.ahead
    let events := rejectionEvents cursor.position cursor.ahead decoded
    match decoded with
    | .ok instruction =>
        some (⟨.decoded cursor.position instruction, events⟩,
          { cursor with
            position := cursor.position + instruction.size
            ahead := cursor.ahead.drop instruction.size })
    | .error fault => some (⟨.rejected fault, events⟩, { cursor with failed := true })

/-- A cursor yields nothing exactly at the end of the script or after a fault. -/
theorem next?_eq_none_iff (cursor : Cursor) :
    cursor.next? = none ↔ cursor.failed = true ∨ cursor.ahead = [] := by
  unfold next?
  split
  · next stopped => simpa using stopped
  · next going =>
      simp only [Bool.or_eq_true, List.isEmpty_iff] at going
      simp only [going, iff_false]
      split <;> simp

/-- A bound on the items that the cursor can still yield. -/
def remaining (cursor : Cursor) : Nat :=
  if cursor.failed then 0 else cursor.ahead.length + 1

/-- Every step lowers the bound on the steps that follow. -/
theorem remaining_lt_of_next? {cursor later : Cursor} {item : Logged Item}
    (step : cursor.next? = some (item, later)) : later.remaining < cursor.remaining := by
  unfold next? at step
  split at step
  · contradiction
  · next going =>
      simp only [Bool.or_eq_true, List.isEmpty_iff, not_or] at going
      obtain ⟨notFailed, nonempty⟩ := going
      have positive := List.length_pos_iff.mpr nonempty
      simp only at step
      split at step
      · next instruction _ =>
          obtain ⟨_, rfl⟩ := by simpa using step
          have size := instruction.size_pos
          simp only [remaining, notFailed, Bool.false_eq_true, ↓reduceIte, List.length_drop]
          omega
      · obtain ⟨_, rfl⟩ := by simpa using step
        simp [remaining, notFailed]

/-- All items ahead of the cursor, after those gathered already with the latest
first, and the cursor at the end. -/
def drainOnto (gathered : List Item) (events : List Event) (cursor : Cursor) :
    Logged (List Item) × Cursor :=
  match _step : cursor.next? with
  | none => (⟨gathered.reverse, events⟩, cursor)
  | some (item, later) => drainOnto (item.value :: gathered) (events ++ item.events) later
termination_by cursor.remaining
decreasing_by exact remaining_lt_of_next? _step

/-- All items ahead of the cursor and the cursor after them. -/
def drain (cursor : Cursor) : Logged (List Item) × Cursor := cursor.drainOnto [] []

end Cursor

end Bytecode
