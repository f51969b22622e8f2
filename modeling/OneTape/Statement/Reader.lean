import OneTape.Statement.Basic

namespace OneTape.Statement

open Text

abbrev Reader (α : Type) := List Char → Except Stop (α × List Char)

def readGap (s : List Char) : List Char × List Char :=
  (s.takeWhile isBlank, s.dropWhile isBlank)

def readSymbol : Reader (List Char) := fun s ↦
  let symbol := s.takeWhile isTokenChar
  if symbol = [] then .error ⟨.symbol, s⟩ else .ok (symbol, s.dropWhile isTokenChar)

def readAction : Reader Action := fun s ↦
  match Action.ofToken? (s.takeWhile isTokenChar) with
  | none => .error ⟨.action, s⟩
  | some action => .ok (action, s.dropWhile isTokenChar)

def readCondition : Reader Condition := fun s ↦ do
  let (state, s) ← readSymbol s
  let (gap, s) := readGap s
  let (input, s) ← readSymbol s
  return (⟨state, gap, input⟩, s)

def readEffect : Reader Effect := fun s ↦ do
  let (next, s) ← readSymbol s
  let (gap, s) := readGap s
  let (output, s) ← readSymbol s
  let (gap', s) := readGap s
  let (action, s) ← readAction s
  return (⟨next, gap, output, gap', action⟩, s)

/-- A text that is one statement. A condition that no colon follows speaks against the text as a
whole, not against the place where the colon is missing. -/
def read (whole : List Char) : Except Stop Statement := do
  let (lead, s) := readGap whole
  let (condition, s) ← readCondition s
  let (gap, s) := readGap s
  match s with
  | ':' :: s =>
    let (gap', s) := readGap s
    let (effect, s) ← readEffect s
    let (trail, s) := readGap s
    if s = [] then return ⟨lead, condition, gap, gap', effect, trail⟩
    else throw ⟨.endOfText, s⟩
  | _ => throw ⟨.statement, whole⟩

end OneTape.Statement
