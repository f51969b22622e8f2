namespace OneTape

inductive Action where
  | left
  | right
  | halt
deriving DecidableEq, Repr

namespace Action

def letter : Action → Char
  | left => 'L'
  | right => 'R'
  | halt => 'H'

def ofToken? : List Char → Option Action
  | ['L'] => some left
  | ['R'] => some right
  | ['H'] => some halt
  | _ => none

theorem ofToken?_letter (a : Action) : ofToken? [a.letter] = some a := by
  cases a <;> rfl

end Action

structure Rule where
  state : String
  input : String
  next : String
  output : String
  action : Action
deriving DecidableEq, Repr

namespace Rule

def fires (rule : Rule) (state symbol : String) : Bool :=
  rule.state == state && rule.input == symbol

def text (rule : Rule) : String :=
  rule.state ++ " " ++ rule.input ++ " : " ++ rule.next ++ " " ++ rule.output ++ " "
    ++ rule.action.letter.toString

end Rule

end OneTape
