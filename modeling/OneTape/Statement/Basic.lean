import OneTape.Rule
import OneTape.Text.Basic

namespace OneTape

namespace Statement

open Text

def isTokenChar (c : Char) : Bool := c != ':' && !isBlank c

inductive Expected where
  | symbol
  | action
  | statement
  | endOfText
deriving DecidableEq, Repr

/-- Reading stopped in front of `rest`, for want of what is `expected`. -/
structure Stop where
  expected : Expected
  rest : List Char
deriving DecidableEq, Repr

structure Condition where
  state : List Char
  gap : List Char
  input : List Char
deriving DecidableEq, Repr

structure Effect where
  next : List Char
  gap : List Char
  output : List Char
  gap' : List Char
  action : Action
deriving DecidableEq, Repr

end Statement

/-- A line `state input : next output action` with all its white space, which may stand anywhere
between the parts. Symbols are runs of characters that are neither white space nor a colon. -/
structure Statement where
  lead : List Char
  condition : Statement.Condition
  gap : List Char
  gap' : List Char
  effect : Statement.Effect
  trail : List Char
deriving DecidableEq, Repr

namespace Statement

open Text

def Condition.text (c : Condition) : List Char := c.state ++ c.gap ++ c.input

def Effect.text (e : Effect) : List Char :=
  e.next ++ e.gap ++ e.output ++ e.gap' ++ [e.action.letter]

def text (s : Statement) : List Char :=
  s.lead ++ s.condition.text ++ s.gap ++ ':' :: (s.gap' ++ s.effect.text ++ s.trail)

def rule (s : Statement) : Rule where
  state := String.ofList s.condition.state
  input := String.ofList s.condition.input
  next := String.ofList s.effect.next
  output := String.ofList s.effect.output
  action := s.effect.action

end Statement

end OneTape
