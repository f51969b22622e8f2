import OneTape.Machine.Basic

namespace OneTape.Machine

inductive Operation where
  | build (tape state : String) (head : Nat)
  | buildFrom (config : Config)
  | step
  | reset
  | insertRule (rule : Rule) (row : Option Nat)
  | addVacantRow
  | editRule (row : Option Nat) (line : String)
  | removeRule (row : Nat)
deriving DecidableEq, Repr

inductive Answer where
  | done
  | stepped (outcome : Outcome)
  | row (row : Nat)
deriving DecidableEq, Repr

def Reply.map {α β : Type} (f : α → β) (reply : Reply α) : Reply β :=
  (Except.map f reply.1, reply.2)

def perform (m : Machine) : Operation → Reply Answer
  | .build tape state head => (m.build tape state head).map fun _ ↦ .done
  | .buildFrom config => (m.buildFrom config).map fun _ ↦ .done
  | .step => m.step.map .stepped
  | .reset => (.ok .done, m.reset)
  | .insertRule rule row => (m.insertRule rule row).map .row
  | .addVacantRow => m.addVacantRow.map .row
  | .editRule row line => (m.editRule row line).map .row
  | .removeRule row => (m.removeRule row).map fun _ ↦ .done

/-- The answers to operations one after the other, whether they fail or not, and the machine at the
end. -/
def performAll (m : Machine) : List Operation → List (Except Error Answer) × Machine
  | [] => ([], m)
  | op :: ops =>
    let (answer, m) := m.perform op
    let (answers, m) := m.performAll ops
    (answer :: answers, m)

/-- The machines that operations lead to, from one that was never built. -/
inductive Reachable (program : Program) : Machine → Prop where
  | new : Reachable program (.new program)
  | perform {m : Machine} (h : Reachable program m) (op : Operation) :
      Reachable program (m.perform op).2

end OneTape.Machine
