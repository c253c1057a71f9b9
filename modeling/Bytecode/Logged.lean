import Bytecode.Event

/-! # Logged values

A logged value carries the events of its computation in the order in which they
happened. Logged computations compose like any others; their events are appended.
-/

namespace Bytecode

/-- A value and the events of its computation, in order. -/
structure Logged (α : Type) where
  value : α
  events : List Event

namespace Logged

/-- A value computed without an event. -/
def silent {α : Type} (value : α) : Logged α := ⟨value, []⟩

/-- The events of a further computation come after those of the first. -/
def andThen {α β : Type} (first : Logged α) (next : α → Logged β) : Logged β :=
  let second := next first.value
  ⟨second.value, first.events ++ second.events⟩

instance : Monad Logged where
  pure := silent
  bind := andThen

def report (event : Event) : Logged Unit := ⟨(), [event]⟩

theorem ext {α : Type} {first second : Logged α} (values : first.value = second.value)
    (events : first.events = second.events) : first = second := by
  cases first
  cases second
  cases values
  cases events
  rfl

@[simp] theorem value_pure {α : Type} (value : α) : (pure value : Logged α).value = value := rfl

@[simp] theorem events_pure {α : Type} (value : α) : (pure value : Logged α).events = [] := rfl

@[simp] theorem value_bind {α β : Type} (first : Logged α) (next : α → Logged β) :
    (first >>= next).value = (next first.value).value := rfl

@[simp] theorem events_bind {α β : Type} (first : Logged α) (next : α → Logged β) :
    (first >>= next).events = first.events ++ (next first.value).events := rfl

@[simp] theorem value_report (event : Event) : (report event).value = () := rfl

@[simp] theorem events_report (event : Event) : (report event).events = [event] := rfl

end Logged

end Bytecode
