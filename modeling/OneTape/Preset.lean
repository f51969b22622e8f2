import OneTape.Machine.Basic
import OneTape.Program

namespace OneTape

open Text

structure Preset where
  name : String
  description : String
  config : Config
  text : String
  program : Program
  ofText_text : Program.ofText text = .ok program

namespace Preset

set_option maxRecDepth 1024 in
def unaryDoubler : Preset where
  name := "Unary Doubler"
  description := "Doubles a run of 1s by marking each one and writing a partner to its left"
  config := .standard
  text := "Q0 1 : Q1 X L
Q0 X : Q0 X R
Q0 Y : Q0 Y R
Q1 X : Q1 X L
Q1 Y : Q1 Y L
Q1 b : Q0 Y R
Q0 b : Q2 b L
Q2 X : Q2 1 L
Q2 Y : Q2 1 L
Q2 b : Q2 b R
Q2 1 : Q2 1 H
"
  program := .ofRules
    [⟨"Q0", "1", "Q1", "X", .left⟩,
     ⟨"Q0", "X", "Q0", "X", .right⟩,
     ⟨"Q0", "Y", "Q0", "Y", .right⟩,
     ⟨"Q1", "X", "Q1", "X", .left⟩,
     ⟨"Q1", "Y", "Q1", "Y", .left⟩,
     ⟨"Q1", "b", "Q0", "Y", .right⟩,
     ⟨"Q0", "b", "Q2", "b", .left⟩,
     ⟨"Q2", "X", "Q2", "1", .left⟩,
     ⟨"Q2", "Y", "Q2", "1", .left⟩,
     ⟨"Q2", "b", "Q2", "b", .right⟩,
     ⟨"Q2", "1", "Q2", "1", .halt⟩]
  ofText_text := rfl

def bitFlipper : Preset where
  name := "Bit Flipper"
  description := "Inverts every bit between two blanks, then halts"
  config := ⟨"b,1,0,1,1,b", "scan", 2⟩
  text := "scan 0 : scan 1 R
scan 1 : scan 0 R
scan b : done b H
"
  program := .ofRules
    [⟨"scan", "0", "scan", "1", .right⟩,
     ⟨"scan", "1", "scan", "0", .right⟩,
     ⟨"scan", "b", "done", "b", .halt⟩]
  ofText_text := rfl

def all : List Preset := [unaryDoubler, bitFlipper]

def names : List String := all.map (·.name)

def first : Preset := unaryDoubler

def ofNumber (number : Nat) : Except Error Preset :=
  match all[number]? with
  | some preset => .ok preset
  | none => .error (.unknownPreset ("#" ++ toString number))

def sameName (a b : String) : Bool := a.toList.map Char.toLower == b.toList.map Char.toLower

def ofName (name : String) : Except Error Preset :=
  match all.find? (fun preset ↦ sameName preset.name name) with
  | some preset => .ok preset
  | none => .error (.unknownPreset name)

/-- Finds a preset by a key with white space around it. A key that is a numeral is a number, even if
there is no preset of this number. -/
def find (key : String) : Except Error Preset :=
  match readNumeral? (trim key.toList) with
  | some number => ofNumber number
  | none => ofName (String.ofList (trim key.toList))

def start (preset : Preset) : Machine.Reply Unit :=
  (Machine.new preset.program).buildFrom preset.config

end Preset

end OneTape
