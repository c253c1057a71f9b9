import Bytecode.Cursor

/-! # Walks

A walk goes over a script from its start to its end or its first fault. A walk
under way can be stepped, run to its end, and taken back to a place that was kept.
-/

namespace Bytecode

/-- A walk over a whole script: its items and the place where it ended. -/
structure Walk where
  items : List Item
  stop : Nat
  deriving DecidableEq

/-- Walk a script from its start to its end or its first fault. -/
def Decoder.walk (decoder : Decoder) (script : Bytes) : Logged Walk :=
  let (items, stopped) := (Cursor.start decoder script).drain
  ⟨⟨items.value, stopped.position⟩, items.events⟩

/-- A cursor together with the one kept for later. -/
structure Bookmark where
  cursor : Cursor
  kept : Cursor

/-- What can be asked of a walk under way. -/
inductive WalkCommand where
  | next
  | rest
  | save
  | restore
  deriving DecidableEq

/-- What a command to a walk is answered with. -/
inductive WalkAnswer where
  | next (item : Option Item)
  | rest (items : List Item)
  | saved
  | restored
  deriving DecidableEq

namespace Bookmark

/-- Begin a walk; the place kept at first is the start. -/
def start (decoder : Decoder) (script : Bytes) : Bookmark :=
  ⟨.start decoder script, .start decoder script⟩

def perform (bookmark : Bookmark) : WalkCommand → Logged WalkAnswer × Bookmark
  | .next =>
      match bookmark.cursor.next? with
      | none => (⟨.next none, []⟩, bookmark)
      | some (item, later) =>
          (⟨.next (some item.value), item.events⟩, { bookmark with cursor := later })
  | .rest =>
      let (items, stopped) := bookmark.cursor.drain
      (⟨.rest items.value, items.events⟩, { bookmark with cursor := stopped })
  | .save => (⟨.saved, []⟩, { bookmark with kept := bookmark.cursor })
  | .restore => (⟨.restored, []⟩, { bookmark with cursor := bookmark.kept })

/-- Carry out commands in order: each answer with the position after it. -/
def performAll (bookmark : Bookmark) : List WalkCommand → Logged (List (WalkAnswer × Nat))
  | [] => ⟨[], []⟩
  | command :: rest =>
      let (answer, after) := bookmark.perform command
      let later := after.performAll rest
      ⟨(answer.value, after.cursor.position) :: later.value, answer.events ++ later.events⟩

end Bookmark

end Bytecode
