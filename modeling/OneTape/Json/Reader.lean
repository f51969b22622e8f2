import OneTape.Json.Fault

namespace OneTape.Json

abbrev Reader (α : Type) := List Char → Except Fault (α × List Char)

def isSpace (c : Char) : Bool := c == ' ' || c == '\t' || c == '\n' || c == '\r'

def skipSpace (s : List Char) : List Char := s.dropWhile isSpace

def readWord : List Char → Reader Unit
  | [], s => .ok ((), s)
  | _ :: _, [] => .error (.here .endInValue [])
  | expected :: word, c :: s =>
    if c = expected then readWord word s else .error (.next .brokenWord (c :: s))

def readColon : Reader Unit := fun s ↦
  match skipSpace s with
  | ':' :: s => .ok ((), s)
  | [] => .error (.next .endInObject [])
  | s => .error (.next .noColon s)

/-- Looks for the key of the next member of an object, or for the end of the object. The text that
is left starts inside the key's quotes, or with the brace. -/
def nextKey (first : Bool) : Reader Bool := fun s ↦
  match skipSpace s with
  | [] => .error (.next .endInObject [])
  | '\x7d' :: s => .ok (false, '\x7d' :: s)
  | ',' :: s =>
    if first then .error (.next .keyNotString (',' :: s))
    else
      match skipSpace s with
      | [] => .error (.next .endInValue [])
      | '"' :: s => .ok (true, s)
      | '\x7d' :: s => .error (.next .trailingComma ('\x7d' :: s))
      | s => .error (.next .keyNotString s)
  | '"' :: s => if first then .ok (true, s) else .error (.next .noCommaOrBrace ('"' :: s))
  | s => .error (.next (if first then .keyNotString else .noCommaOrBrace) s)

/-- Looks for the next element of an array, or for the end of the array. The text that is left
starts with the element or with the bracket. -/
def nextElement (first : Bool) : Reader Bool := fun s ↦
  match skipSpace s with
  | [] => .error (.next .endInList [])
  | ']' :: s => .ok (false, ']' :: s)
  | ',' :: s =>
    if first then .ok (true, ',' :: s)
    else
      match skipSpace s with
      | [] => .error (.next .endInValue [])
      | ']' :: s => .error (.next .trailingComma (']' :: s))
      | s => .ok (true, s)
  | s => if first then .ok (true, s) else .error (.next .noCommaOrBracket s)

structure Closing where
  unread : List Char
  fault? : Option Reason

def endArray (s : List Char) : Closing :=
  match skipSpace s with
  | [] => ⟨[], some .endInList⟩
  | ']' :: s => ⟨s, none⟩
  | ',' :: s =>
    match skipSpace s with
    | ']' :: s => ⟨']' :: s, some .trailingComma⟩
    | s => ⟨s, some .trailingCharacters⟩
  | s => ⟨s, some .trailingCharacters⟩

def endObject (s : List Char) : Closing :=
  match skipSpace s with
  | [] => ⟨[], some .endInObject⟩
  | '\x7d' :: s => ⟨s, none⟩
  | ',' :: s => ⟨',' :: s, some .trailingComma⟩
  | s => ⟨s, some .trailingCharacters⟩

/-- Reads the end behind the content of an array or an object. It is looked for even if the content
has a fault, since that fault may be placed by it. -/
def closeWith (ending : List Char → Closing) (content : Except Fault (α × List Char)) :
    Except Fault (α × List Char) :=
  match content with
  | .error f => .error (f.settle fun s ↦ (ending s).unread)
  | .ok (x, s) =>
    match ending s with
    | ⟨s, none⟩ => .ok (x, s)
    | ⟨s, some reason⟩ => .error (.next reason s)

def readAll (reader : Reader α) (text : String) : Except String α :=
  let result : Except Fault α := do
    let (x, s) ← reader text.toList
    match skipSpace s with
    | [] => return x
    | s => throw (.next .trailingCharacters s)
  result.mapError (·.message text.toList)

end OneTape.Json
