import OneTape.Error
import OneTape.Text.Basic

namespace OneTape

open Text

structure Config where
  tape : String
  state : String
  head : Nat
deriving DecidableEq, Repr

namespace Config

def standard : Config := ⟨"b,b,b,b,1,1,1,b,b", "Q0", 5⟩

/-- Reads the position of a head, which has to be a positive numeral. White space around it does
not matter. -/
def readHead (text : String) : Except Error Nat :=
  match readNumeral? (trim text.toList) with
  | some (position + 1) => .ok (position + 1)
  | _ => .error (.badHead text)

end Config

end OneTape
