import OneTape.Error

namespace OneTape.Command

structure Report where
  message : String
  causes : List String
deriving DecidableEq, Repr

namespace Report

def ofError (e : Error) : Report := ⟨e.message, e.cause?.toList.map (·.message)⟩

def under (context : String) (r : Report) : Report := ⟨context, r.message :: r.causes⟩

def indent (lead : String) (text : String) : String :=
  let margin := String.ofList (List.replicate lead.length ' ')
  lead ++ String.intercalate ("\n" ++ margin) ((text.toList.splitOn '\n').map String.ofList)

def alignRight (width n : Nat) : String :=
  let digits := toString n
  String.ofList (List.replicate (width - digits.length) ' ') ++ digits

def causesText : List String → List String
  | [cause] => [indent "    " cause]
  | causes => causes.mapIdx fun n cause ↦ indent (alignRight 5 n ++ ": ") cause

def text (r : Report) : String :=
  let head := "Error: " ++ r.message
  match causesText r.causes with
  | [] => head ++ "\n"
  | causes => String.intercalate "\n" ((head ++ "\n\nCaused by:") :: causes) ++ "\n"

end Report

end OneTape.Command
