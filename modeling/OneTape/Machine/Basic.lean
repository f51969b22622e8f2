import OneTape.Config
import OneTape.Program
import OneTape.Snapshot
import OneTape.Statement.Complaint
import OneTape.Tape

namespace OneTape

structure Machine where
  program : Program
  tape : Tape
  state : String
  head : Nat
  phase : Phase
  active : Option Nat
deriving DecidableEq, Repr

inductive Outcome where
  | moved
  | halted
  | skipped
deriving DecidableEq, Repr

namespace Machine

/-- An answer, or the error that stands in its place, and the machine as it is afterwards, whether
something failed or not. -/
abbrev Reply (α : Type) := Except Error α × Machine

def new (program : Program) : Machine := ⟨program, .empty, "", 0, .idle, none⟩

def symbol? (m : Machine) : Option String :=
  match m.phase with
  | .started => m.tape.read m.head
  | _ => none

def activeRule? (m : Machine) : Option (Rule × Nat) := do
  let row ← m.active
  let slot ← m.program.slot? row
  let rule ← slot.rule?
  return (rule, row)

/-- The same machine with the row of the next rule looked up anew. -/
def refresh (m : Machine) : Machine :=
  { m with active := do
      let symbol ← m.symbol?
      let (_, row) ← m.program.lookup m.state symbol
      return row }

/-- Loads a tape and starts, in any phase. The head is counted from 1. -/
def build (m : Machine) (tape state : String) (head : Nat) : Reply Unit :=
  let cells := Tape.ofText tape
  if head = 0 ∨ cells.size < head then (.error (.headOutside head cells.size), m)
  else
    (.ok (), { m with tape := cells, state := state, head := head - 1, phase := .started }.refresh)

def buildFrom (m : Machine) (config : Config) : Reply Unit :=
  m.build config.tape config.state config.head

def target? (m : Machine) : Action → Option Nat
  | .left => if m.head = 0 then none else some (m.head - 1)
  | .right => if m.head + 1 < m.tape.size then some (m.head + 1) else none
  | .halt => some m.head

def step (m : Machine) : Reply Outcome :=
  match m.activeRule? with
  | none => (.ok .skipped, m)
  | some (rule, _) =>
    match m.target? rule.action with
    | none => (.error (.offTape m.head), m)
    | some head =>
      match m.tape.write m.head rule.output with
      | .error e => (.error e, m)
      | .ok tape =>
        let m := { m with tape := tape, state := rule.next, head := head }
        match rule.action with
        | .halt => (.ok .halted, { m with phase := .halted, active := none })
        | _ => (.ok .moved, m.refresh)

/-- Goes back to idle, which unlocks the program. Tape, state and head stay to be seen. -/
def reset (m : Machine) : Machine := { m with phase := .idle, active := none }

def whenEditable (m : Machine) (edit : Reply α) : Reply α :=
  match m.phase with
  | .idle => edit
  | phase => (.error (.locked phase), m)

def putSlot (m : Machine) (slot : Slot) (row : Option Nat) : Reply Nat :=
  let (row, program) := m.program.put slot row
  (.ok row, { m with program := program })

def insertRule (m : Machine) (rule : Rule) (row : Option Nat) : Reply Nat :=
  m.whenEditable (m.putSlot (.filled rule) row)

def addVacantRow (m : Machine) : Reply Nat :=
  m.whenEditable (m.putSlot .vacant none)

/-- Inserts the rule that a line states. The lock is looked at before the line is read, and once
more to insert the rule. -/
def editRule (m : Machine) (row : Option Nat) (line : String) : Reply Nat :=
  m.whenEditable <|
    match Rule.ofLine line with
    | .error complaint => (.error (.badStatement complaint), m)
    | .ok rule => m.insertRule rule row

def removeRule (m : Machine) (row : Nat) : Reply Unit :=
  m.whenEditable <|
    match m.program.erase? row with
    | none => (.error (.noSuchRow row m.program.size), m)
    | some program => (.ok (), { m with program := program })

def snapshot (m : Machine) : Snapshot := ⟨m.state, m.tape.cells, m.head, m.active, m.phase⟩

def explain (m : Machine) : Explanation :=
  match m.phase with
  | .idle => .idle
  | .halted => .halted
  | .started => .running m.state m.symbol? m.activeRule?

end Machine

end OneTape
