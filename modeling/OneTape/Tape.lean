import OneTape.Error

namespace OneTape

structure Tape where
  cells : List String
deriving DecidableEq, Repr

namespace Tape

def empty : Tape := ⟨[]⟩

/-- Every piece between commas is a cell, so the empty text is a tape of one cell. -/
def ofText (text : String) : Tape := ⟨(text.toList.splitOn ',').map String.ofList⟩

def text (t : Tape) : String := String.intercalate "," t.cells

def size (t : Tape) : Nat := t.cells.length

def read (t : Tape) (position : Nat) : Option String := t.cells[position]?

def write (t : Tape) (position : Nat) (symbol : String) : Except Error Tape :=
  if position < t.size then .ok ⟨t.cells.set position symbol⟩ else .error (.offTape position)

end Tape

end OneTape
