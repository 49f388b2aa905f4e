import C0.Directory
import C0.Routine

namespace C0

/-- Something that a compilation reports while it runs. -/
inductive Event where
  /-- An entry got an address. -/
  | registered (address : Nat) (entry : Entry)
  /-- A function was compiled. -/
  | compiled (routine : Routine)
  /-- The entry function was made. -/
  | synthesized (routine : Routine)

/-- The event as a line of the log, with its level first. -/
def Event.render : Event → String
  | registered address entry => s!"TRACE registered global [{address}] {entry.render}"
  | compiled routine =>
    s!"DEBUG compiled fn {routine.name} [{routine.address}]: {routine.locals} locals, " ++
      s!"{routine.params.length} params, {routine.code.size} instructions"
  | synthesized routine =>
    s!"DEBUG synthesized {routine.name} [{routine.address}] with " ++
      s!"{routine.code.size} instructions"

end C0
