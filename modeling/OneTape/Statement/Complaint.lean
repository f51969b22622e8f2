import OneTape.Statement.Reader

namespace OneTape.Statement

/-- The text, how many of its characters stand in front of the place, and what should stand
there. -/
structure Complaint where
  text : List Char
  offset : Nat
  expected : Expected
deriving DecidableEq, Repr

def Expected.name : Expected → String
  | symbol => "symbol"
  | action => "action"
  | statement => "statement"
  | endOfText => "EOI"

def Stop.complaint (stop : Stop) (text : List Char) : Complaint :=
  ⟨text, text.length - stop.rest.length, stop.expected⟩

namespace Complaint

def before (c : Complaint) : List Char := c.text.take c.offset

def after (c : Complaint) : List Char := c.text.drop c.offset

def lineStart (c : Complaint) : List Char := (c.before.reverse.takeWhile (· != '\n')).reverse

def line (c : Complaint) : Nat := c.before.count '\n' + 1

def column (c : Complaint) : Nat := c.lineStart.length + 1

def visibleLineEnd : Char → Char
  | '\r' => '\u240D'
  | '\n' => '\u240A'
  | c => c

/-- The line of the place. Line ends are left out of it, unless the place is a line end: then all of
them are made visible, with the one that ends the line. -/
def shownLine (c : Complaint) : List Char :=
  let rest := c.after.takeWhile (· != '\n')
  if c.after.head? = some '\n' ∨ c.after.head? = some '\r' then
    let ending := (c.after.dropWhile (· != '\n')).take 1
    (c.lineStart ++ rest ++ ending).map visibleLineEnd
  else (c.lineStart ++ rest).filter fun c ↦ c != '\r' && c != '\n'

/-- A mark under the place. Tabs are kept, so that it stands right whatever their width. -/
def underline (c : Complaint) : List Char :=
  (c.shownLine.take (c.column - 1)).map (fun c ↦ if c = '\t' then '\t' else ' ') ++ "^---".toList

def message (c : Complaint) : String :=
  let line := toString c.line
  let pad := String.ofList (List.replicate line.length ' ')
  String.intercalate "\n"
    [pad ++ "--> " ++ line ++ ":" ++ toString c.column,
     pad ++ " |",
     line ++ " | " ++ String.ofList c.shownLine,
     pad ++ " | " ++ String.ofList c.underline,
     pad ++ " |",
     pad ++ " = expected " ++ c.expected.name]

end Complaint

end OneTape.Statement

namespace OneTape

def Statement.ofLine (line : List Char) : Except Statement.Complaint Statement :=
  (Statement.read line).mapError (·.complaint line)

def Rule.ofLine (line : String) : Except Statement.Complaint Rule :=
  (Statement.ofLine line.toList).map Statement.rule

end OneTape
