import OneTape.Form.Rule
import OneTape.Program

namespace OneTape

open Json

namespace Slot

def choice : Choice Slot :=
  [("Filled", .holding fun s ↦ (Rule.codec.read s).map fun (rule, s) ↦ (.filled rule, s)),
   ("Empty", .single .vacant)]

def write : Slot → String
  | filled rule => writeObject [("Filled", Rule.codec.write rule)]
  | vacant => writeString "Empty"

def codec : Codec Slot := ⟨write, choice.read⟩

end Slot

namespace Program

def record : Record Unit Program where
  name := "Program"
  fields := [()]
  mem_fields := Record.mem_single
  key _ := "slots"
  Content _ := List Slot
  codec _ := Codec.list Slot.codec
  default? _ := none
  build content := ⟨content ()⟩
  content program _ := program.slots

def codec : Codec Program := record.toCodec

end Program

end OneTape
