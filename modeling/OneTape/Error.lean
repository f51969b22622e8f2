import OneTape.Statement.Complaint
import OneTape.Text.Quoted

namespace OneTape

inductive Phase where
  | idle
  | started
  | halted
deriving DecidableEq, Repr

namespace Phase

def word : Phase → String
  | idle => "idle"
  | started => "started"
  | halted => "halted"

end Phase

open Statement (Complaint)

inductive Error where
  | badStatement (complaint : Complaint)
  | badLine (line : Nat) (complaint : Complaint)
  | badHead (text : String)
  | headOutside (position cells : Nat)
  | offTape (position : Nat)
  | noSuchRow (row rows : Nat)
  | locked (phase : Phase)
  | badConfig (reason : String)
  | unknownPreset (key : String)
deriving DecidableEq, Repr

namespace Error

def message : Error → String
  | badStatement complaint => "Statement parsing error: " ++ complaint.message
  | badLine line complaint =>
    "Invalid statement on line " ++ toString line ++ ": " ++ complaint.message
  | badHead text => "Invalid head position: " ++ Text.quote text
  | headOutside position cells =>
    "Head position " ++ toString position ++ " is outside the tape (1..=" ++ toString cells ++ ")"
  | offTape position => "Tape boundary exceeded at position " ++ toString position
  | noSuchRow row rows =>
    "Statement index " ++ toString row ++ " is out of bounds (program has " ++ toString rows
      ++ " rows)"
  | locked phase => "Program is locked while the machine is " ++ phase.word
  | badConfig reason => "Configuration error: " ++ reason
  | unknownPreset key => "Program '" ++ key ++ "' not found"

def cause? : Error → Option Complaint
  | badStatement complaint | badLine _ complaint => some complaint
  | _ => none

end Error

end OneTape
