import OneTape.Machine.Basic

namespace OneTape

inductive Ending where
  | halted
  | skipped
  | failed (error : Error)
  | limit
deriving DecidableEq, Repr

namespace Machine

/-- Runs for at most `limit` moves, and gathers something from every machine that a rule brought
about. -/
def follow {β : Type} (visit : β → Machine → β) :
    (limit : Nat) → β → Machine → β × Ending × Machine
  | 0, b, m => (b, .limit, m)
  | limit + 1, b, m =>
    match m.step with
    | (.ok .moved, m) => follow visit limit (visit b m) m
    | (.ok .halted, m) => (visit b m, .halted, m)
    | (.ok .skipped, m) => (b, .skipped, m)
    | (.error e, m) => (b, .failed e, m)

def run (m : Machine) (limit : Nat) : Nat × Ending × Machine :=
  follow (fun moves m ↦ if m.phase = .started then moves + 1 else moves) limit 0 m

end Machine

end OneTape
