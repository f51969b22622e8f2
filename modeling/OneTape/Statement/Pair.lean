import OneTape.Statement.Reader
import OneTape.Text.Basic

namespace OneTape.Statement

open Text

inductive Part where
  | symbol
  | action
  | condition
  | effect
  | statement
  | endOfText
deriving DecidableEq, Repr

structure Pair where
  part : Part
  start : Nat
  stop : Nat
  text : String
deriving DecidableEq, Repr

def Pair.spanning (part : Part) (start : Nat) (text : List Char) : Pair :=
  ⟨part, start, start + byteLength text, String.ofList text⟩

def Condition.pairs (c : Condition) (start : Nat) : List Pair :=
  [.spanning .condition start c.text,
   .spanning .symbol start c.state,
   .spanning .symbol (start + byteLength (c.state ++ c.gap)) c.input]

def Effect.pairs (e : Effect) (start : Nat) : List Pair :=
  [.spanning .effect start e.text,
   .spanning .symbol start e.next,
   .spanning .symbol (start + byteLength (e.next ++ e.gap)) e.output,
   .spanning .action (start + byteLength (e.next ++ e.gap ++ e.output ++ e.gap')) [e.action.letter]]

def pairs (s : Statement) : List Pair :=
  .spanning .statement 0 s.text
    :: s.condition.pairs (byteLength s.lead)
    ++ s.effect.pairs (byteLength (s.lead ++ s.condition.text ++ s.gap ++ ':' :: s.gap'))
    ++ [.spanning .endOfText (byteLength s.text) []]

/-- The pairs of one kind of part, read from the start of a text. A statement has to be the whole
text; of the others, what follows them does not matter. -/
def find (part : Part) (s : List Char) : Except Stop (List Pair) :=
  match part with
  | .symbol => (readSymbol s).map fun (name, _) ↦ [.spanning .symbol 0 name]
  | .action => (readAction s).map fun (act, _) ↦ [.spanning .action 0 [act.letter]]
  | .condition => (readCondition s).map fun (c, _) ↦ c.pairs 0
  | .effect => (readEffect s).map fun (e, _) ↦ e.pairs 0
  | .statement => (read s).map pairs
  | .endOfText => if s = [] then .ok [.spanning .endOfText 0 []] else .error ⟨.endOfText, s⟩

end OneTape.Statement
