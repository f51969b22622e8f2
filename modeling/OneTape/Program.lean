import OneTape.Error

namespace OneTape

open Text

inductive Slot where
  | filled (rule : Rule)
  | vacant
deriving DecidableEq, Repr

namespace Slot

def rule? : Slot → Option Rule
  | filled rule => some rule
  | vacant => none

def text : Slot → String
  | filled rule => rule.text
  | vacant => ""

def ofLine (line : List Char) : Except Statement.Complaint Slot :=
  if line.all isBlank then .ok .vacant
  else (Statement.ofLine line).map fun s ↦ .filled s.rule

end Slot

structure Program where
  slots : List Slot
deriving DecidableEq, Repr

namespace Program

def empty : Program := ⟨[]⟩

def ofRules (rules : List Rule) : Program := ⟨rules.map .filled⟩

def size (p : Program) : Nat := p.slots.length

def slot? (p : Program) (row : Nat) : Option Slot := p.slots[row]?

def rules (p : Program) : List Rule := p.slots.filterMap Slot.rule?

def lines (p : Program) : List String := p.slots.map Slot.text

def lookupIn (state symbol : String) : List Slot → Option (Rule × Nat)
  | [] => none
  | .filled rule :: slots =>
    if rule.fires state symbol then some (rule, 0)
    else (lookupIn state symbol slots).map fun (rule, row) ↦ (rule, row + 1)
  | .vacant :: slots => (lookupIn state symbol slots).map fun (rule, row) ↦ (rule, row + 1)

/-- The first row that holds a rule for a key decides; the rows behind it with the same key are
dead. -/
def lookup (p : Program) (state symbol : String) : Option (Rule × Nat) :=
  lookupIn state symbol p.slots

/-- Puts a slot into a row, or behind the last row if there is no such row or none is named. Tells
the row it is in then. -/
def put (p : Program) (slot : Slot) (row : Option Nat) : Nat × Program :=
  match row with
  | none => (p.size, ⟨p.slots ++ [slot]⟩)
  | some row =>
    if row < p.size then (row, ⟨p.slots.set row slot⟩) else (p.size, ⟨p.slots ++ [slot]⟩)

def erase? (p : Program) (row : Nat) : Option Program :=
  if row < p.size then some ⟨p.slots.eraseIdx row⟩ else none

/-- Reads rows, the first of which is line `number` of the text. The first bad line is reported. -/
def readRows (number : Nat) : List (List Char) → Except Error (List Slot)
  | [] => .ok []
  | line :: more =>
    match Slot.ofLine line with
    | .error complaint => .error (.badLine number complaint)
    | .ok slot => (readRows (number + 1) more).map (slot :: ·)

def ofText (text : String) : Except Error Program :=
  (readRows 1 (Text.lines text.toList)).map .mk

end Program

end OneTape
