import OneTape.Json.Choice
import OneTape.Json.Record
import OneTape.Rule

namespace OneTape

open Json

namespace Action

def name : Action → String
  | left => "Left"
  | right => "Right"
  | halt => "Halt"

def choice : Choice Action :=
  [left, right, halt].map fun action ↦ (action.name, .single action)

def codec : Codec Action := ⟨fun action ↦ writeString action.name, choice.read⟩

end Action

namespace Rule

inductive Field where
  | state
  | input
  | next
  | output
  | action
deriving DecidableEq

def Field.Content : Field → Type
  | action => Action
  | _ => String

def record : Record Field Rule where
  name := "Transition"
  fields := [.state, .input, .next, .output, .action]
  mem_fields := by intro i; cases i <;> decide
  key
    | .state => "current_state"
    | .input => "input"
    | .next => "next_state"
    | .output => "output"
    | .action => "action"
  Content := Field.Content
  codec
    | .state => Codec.string
    | .input => Codec.string
    | .next => Codec.string
    | .output => Codec.string
    | .action => Action.codec
  default? _ := none
  build content :=
    ⟨content .state, content .input, content .next, content .output, content .action⟩
  content rule
    | .state => rule.state
    | .input => rule.input
    | .next => rule.next
    | .output => rule.output
    | .action => rule.action

def codec : Codec Rule := record.toCodec

end Rule

end OneTape
