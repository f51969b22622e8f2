import OneTape.Json.Reason
import OneTape.Text.Basic

namespace OneTape.Json

/-- A fault at the place in front of `unread`, or `ahead` bytes further on. -/
structure Fault where
  reason : Reason
  unread : List Char
  ahead : Nat
  /-- Whether the place is final. A fault of a value as a whole gets its place from what holds the
  value; without that it has none. -/
  placed : Bool

namespace Fault

def here (reason : Reason) (unread : List Char) : Fault := ⟨reason, unread, 0, true⟩

def next (reason : Reason) (unread : List Char) : Fault := ⟨reason, unread, 1, true⟩

def ofWhole (reason : Reason) (unread : List Char) : Fault := ⟨reason, unread, 0, false⟩

def settle (ending : List Char → List Char) (f : Fault) : Fault :=
  if f.placed then f else ⟨f.reason, ending f.unread, 0, true⟩

def message (f : Fault) (text : List Char) : String :=
  if f.placed then
    let bytes := Text.byteLength text - Text.byteLength f.unread + f.ahead
    let (line, column) := Text.placeAfter 1 0 bytes text
    f.reason.text ++ " at line " ++ toString line ++ " column " ++ toString column
  else f.reason.text

end Fault

end OneTape.Json
