import OneTape.Error

namespace OneTape

structure Snapshot where
  state : String
  tape : List String
  head : Nat
  activeRow : Option Nat
  phase : Phase
deriving DecidableEq, Repr

namespace Snapshot

/-- A cell in a line of cells: the one under the head is in brackets, unless the machine is idle. -/
def cellText (s : Snapshot) (position : Nat) (cell : String) : String :=
  if position = s.head ∧ s.phase ≠ .idle then "[" ++ cell ++ "]" else cell

def tapeLine (s : Snapshot) : String :=
  String.intercalate " " (s.tape.mapIdx s.cellText)

end Snapshot

inductive Explanation where
  | idle
  | halted
  | running (state : String) (input : Option String) (next : Option (Rule × Nat))
deriving DecidableEq, Repr

namespace Explanation

def rowNumber (row : Nat) : String :=
  let digits := toString (row + 1)
  if row + 1 < 10 then "0" ++ digits else digits

def inputSentence : Option String → String
  | some input => "The current input is " ++ input ++ ". "
  | none => "The head is off the tape. "

def actionClause : Action → String
  | .left => "the head will move left."
  | .right => "the head will move right."
  | .halt => "the machine will halt."

def nextSentences : Option (Rule × Nat) → String
  | none => "No statements match the current state and input."
  | some (rule, row) =>
    "Based on these, the machine will execute the statement " ++ rowNumber row
      ++ ". The next state will be " ++ rule.next ++ ". \"" ++ rule.output
      ++ "\" will be written to the tape. After that, " ++ actionClause rule.action

def text : Explanation → String
  | idle => "The machine is not running."
  | halted => "The machine has halted."
  | running state input next =>
    "The machine is in state " ++ state ++ ". " ++ inputSentence input ++ nextSentences next

end Explanation

end OneTape
