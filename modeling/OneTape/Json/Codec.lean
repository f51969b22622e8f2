import OneTape.Json.Scalar
import OneTape.Json.Writer

namespace OneTape.Json

structure Codec (α : Type) where
  write : α → String
  read : Reader α

namespace Codec

def natural : Codec Nat := ⟨writeNatural, readNatural⟩

def string : Codec String := ⟨writeString, readString⟩

/-- Reads the elements of an array behind its bracket, up to the closing one. An element that takes
nothing from the text would be read for ever, and is refused. -/
def readElements (item : Reader α) (first : Bool) : Reader (List α) := fun s ↦
  match nextElement first s with
  | .error f => .error f
  | .ok (false, r) => .ok ([], r)
  | .ok (true, r) =>
    match item r with
    | .error f => .error f
    | .ok (x, r) =>
      if r.length < s.length then
        (readElements item false r).map fun (xs, r) ↦ (x :: xs, r)
      else .error (.next .noValue r)
termination_by s => s.length

def list (item : Codec α) : Codec (List α) where
  write xs := writeArray (xs.map item.write)
  read s :=
    match skipSpace s with
    | '[' :: s => closeWith endArray (readElements item.read true s)
    | s => .error (mismatch "a sequence" s)

def decode (codec : Codec α) (text : String) : Except String α := readAll codec.read text

end Codec

end OneTape.Json
