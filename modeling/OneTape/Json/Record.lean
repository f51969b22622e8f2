import OneTape.Json.Codec
import OneTape.Json.Skip

namespace OneTape.Json

/-- The fields of a type, named by `ι`. A record is written as an object with the fields in their
order, and read from an object with the fields in any order, other members being passed over, or
from an array of the fields. -/
structure Record (ι α : Type) where
  name : String
  fields : List ι
  mem_fields : ∀ i, i ∈ fields
  key : ι → String
  Content : ι → Type
  codec : (i : ι) → Codec (Content i)
  default? : (i : ι) → Option (Content i)
  build : ((i : ι) → Content i) → α
  content : α → (i : ι) → Content i

namespace Record

theorem mem_single (i : Unit) : i ∈ [()] := List.mem_singleton_self i

variable {ι α : Type} [DecidableEq ι] (record : Record ι α)

abbrev Given := (i : ι) → Option (record.Content i)

def noneGiven : record.Given := fun _ ↦ none

variable {record} in
def Given.set (given : record.Given) (i : ι) (x : record.Content i) : record.Given :=
  fun j ↦ if h : i = j then some (h ▸ x) else given j

def final? (given : record.Given) (i : ι) : Option (record.Content i) :=
  given i <|> record.default? i

def finish (given : record.Given) : Except Reason α :=
  match h : record.fields.find? fun i ↦ (record.final? given i).isNone with
  | some i => .error (.missingField (record.key i))
  | none =>
    .ok (record.build fun i ↦ (record.final? given i).get (by
      have := List.find?_eq_none.1 h i (record.mem_fields i)
      simpa [Option.isSome_iff_ne_none] using this))

def field? (key : String) : Option ι := record.fields.find? fun i ↦ record.key i == key

def readMembers (given : record.Given) (first : Bool) : Reader record.Given := fun s ↦
  match nextKey first s with
  | .error f => .error f
  | .ok (false, r) => .ok (given, r)
  | .ok (true, r) => do
    let (key, r) ← readStringRest r
    match record.field? key with
    | none =>
      let (_, r) ← readColon r
      let r ← skipValue r
      if r.length < s.length then readMembers given false r else throw (.next .noValue r)
    | some i =>
      if (given i).isSome then throw (.ofWhole (.duplicateField key) r)
      let (_, r) ← readColon r
      let (x, r) ← (record.codec i).read r
      if r.length < s.length then readMembers (given.set i x) false r
      else throw (.next .noValue r)
termination_by s => s.length

/-- Reads the elements of an array as these fields, the array having `fields` before them. Too few
elements will do only if the others may be left out. -/
def readFields (given : record.Given) (first : Bool) : List ι → Reader record.Given
  | [], s => .ok (given, s)
  | i :: fields, s => do
    let (more, r) ← nextElement first s
    if more then
      let (x, r) ← (record.codec i).read r
      readFields (given.set i x) false fields r
    else
      if (i :: fields).all fun j ↦ (record.default? j).isSome then return (given, r)
      else
        let read := record.fields.length - (i :: fields).length
        throw (.ofWhole (.tooShort read record.name record.fields.length) r)

def finishWith (content : Except Fault (record.Given × List Char)) :
    Except Fault (α × List Char) := do
  let (given, s) ← content
  match record.finish given with
  | .ok x => return (x, s)
  | .error reason => throw (.ofWhole reason s)

def read : Reader α := fun s ↦
  match skipSpace s with
  | '[' :: s =>
    closeWith endArray (record.finishWith (record.readFields record.noneGiven true record.fields s))
  | '\x7b' :: s =>
    closeWith endObject (record.finishWith (record.readMembers record.noneGiven true s))
  | s => .error (mismatch ("struct " ++ record.name) s)

def write (x : α) : String :=
  writeObject (record.fields.map fun i ↦
    (record.key i, (record.codec i).write (record.content x i)))

def toCodec : Codec α := ⟨record.write, record.read⟩

end Record

end OneTape.Json
