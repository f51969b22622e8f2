import OneTape.Json.Number
import OneTape.Json.StringReader

namespace OneTape.Json

def Number.found : Number → Found
  | natural n => .integer n
  | negative n => .integer (-n)
  | double x => .double x

def readFound : Reader Found := fun s ↦
  match s with
  | [] => .error (.next .endInValue [])
  | 'n' :: s => (readWord ['u', 'l', 'l'] s).map fun (_, s) ↦ (.null, s)
  | 't' :: s => (readWord ['r', 'u', 'e'] s).map fun (_, s) ↦ (.boolean true, s)
  | 'f' :: s => (readWord ['a', 'l', 's', 'e'] s).map fun (_, s) ↦ (.boolean false, s)
  | '-' :: s => (readNumber true s).map fun (n, s) ↦ (n.found, s)
  | '"' :: s => (readStringRest s).map fun (x, s) ↦ (.string x, s)
  | '[' :: s => .ok (.sequence, '[' :: s)
  | '\x7b' :: s => .ok (.map, '\x7b' :: s)
  | c :: s =>
    if c.isDigit then (readNumber false (c :: s)).map fun (n, s) ↦ (n.found, s)
    else .error (.next .noValue (c :: s))

/-- The fault of a value that is not the wanted one. A fault inside the value comes first. -/
def mismatch (wanted : String) (s : List Char) : Fault :=
  match readFound s with
  | .error f => f
  | .ok (found, s) => .here (.wrongKind found wanted) s

def readNatural : Reader Nat := fun s ↦ do
  let s := skipSpace s
  let (number, s) ← match s with
    | '-' :: s => readNumber true s
    | s => if s.head?.any Char.isDigit then readNumber false s else throw (mismatch "usize" s)
  match number with
  | .natural n => return (n, s)
  | .negative n => throw (.here (.wrongValue (.integer (-n)) "usize") s)
  | .double x => throw (.here (.wrongKind (.double x) "usize") s)

def readString : Reader String := fun s ↦
  match skipSpace s with
  | '"' :: s => readStringRest s
  | s => .error (mismatch "a string" s)

def readNull : Reader Unit := fun s ↦
  match skipSpace s with
  | 'n' :: s => readWord ['u', 'l', 'l'] s
  | s => .error (mismatch "unit" s)

end OneTape.Json
