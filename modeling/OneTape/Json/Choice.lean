import OneTape.Json.Codec

namespace OneTape.Json

inductive Variant (α : Type) where
  | single (value : α)
  | holding (read : Reader α)

/-- The variants of a type with their names. One without content is written as its name, and one
with content as an object with the name as its only key. -/
abbrev Choice (α : Type) := List (String × Variant α)

namespace Choice

variable {α : Type} (choice : Choice α)

def readName : Reader (Variant α) := fun s ↦ do
  let (name, s) ← readStringRest s
  match choice.lookup name with
  | some variant => return (variant, s)
  | none => throw (.here (.unknownVariant name (choice.map (·.1))) s)

def readBare : Reader α := fun s ↦ do
  let (variant, s) ← choice.readName s
  match variant with
  | .single x => return (x, s)
  | .holding _ => throw (.ofWhole (.wrongKind .unitVariant "newtype variant") s)

/-- Looks for the name of a variant behind the brace of an object, which has to hold one. The text
that is left starts inside the name's quotes. -/
def openName : Reader Unit := fun s ↦
  match skipSpace s with
  | [] => .error (.next .endInObject [])
  | '"' :: s => .ok ((), s)
  | '\x7d' :: s => .error (.next .noValue ('\x7d' :: s))
  | s => .error (.next .keyNotString s)

def readMember : Reader α := fun s ↦ do
  let (_, s) ← openName s
  let (variant, s) ← choice.readName s
  let (_, s) ← readColon s
  match variant with
  | .single x =>
    let (_, s) ← readNull s
    return (x, s)
  | .holding read => read s

def read : Reader α := fun s ↦
  match skipSpace s with
  | [] => .error (.next .endInValue [])
  | '"' :: s => choice.readBare s
  | '\x7b' :: s => do
    let (x, s) ← choice.readMember s
    match skipSpace s with
    | [] => throw (.here .endInObject [])
    | '\x7d' :: s => return (x, s)
    | s => throw (.here .noValue s)
  | s => .error (.next .noValue s)

end Choice

end OneTape.Json
