import OneTape.Config
import OneTape.Json.Choice
import OneTape.Json.Record
import OneTape.Snapshot
import OneTape.Tape

namespace OneTape

open Json

namespace Tape

def record : Record Unit Tape where
  name := "Tape"
  fields := [()]
  mem_fields := Record.mem_single
  key _ := "cells"
  Content _ := List String
  codec _ := Codec.list Codec.string
  default? _ := none
  build content := ⟨content ()⟩
  content tape _ := tape.cells

def codec : Codec Tape := record.toCodec

end Tape

namespace Config

inductive Field where
  | tape
  | state
  | head
deriving DecidableEq

def Field.Content : Field → Type
  | head => Nat
  | _ => String

def content (config : Config) : (i : Field) → i.Content
  | .tape => config.tape
  | .state => config.state
  | .head => config.head

/-- A field that is not given is as in the standard configuration. -/
def record : Record Field Config where
  name := "MachineConfig"
  fields := [.tape, .state, .head]
  mem_fields := by intro i; cases i <;> decide
  key
    | .tape => "tape"
    | .state => "state"
    | .head => "head"
  Content := Field.Content
  codec
    | .tape => Codec.string
    | .state => Codec.string
    | .head => Codec.natural
  default? i := some (standard.content i)
  build content := ⟨content .tape, content .state, content .head⟩
  content := content

def codec : Codec Config := record.toCodec

def ofJson (text : String) : Except Error Config := (codec.decode text).mapError .badConfig

end Config

namespace Phase

def name : Phase → String
  | idle => "Idle"
  | started => "Started"
  | halted => "Halted"

def choice : Choice Phase := [idle, started, halted].map fun phase ↦ (phase.name, .single phase)

def codec : Codec Phase := ⟨fun phase ↦ writeString phase.name, choice.read⟩

end Phase

def Snapshot.toJson (s : Snapshot) : String :=
  writeObject
    [("state", writeString s.state),
     ("tape", writeArray (s.tape.map writeString)),
     ("head", writeNatural s.head),
     ("active_rule", writeOption writeNatural s.activeRow),
     ("running", writeString s.phase.name)]

end OneTape
