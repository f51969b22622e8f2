namespace OneTape.Json

def hexDigit (n : Nat) : Char := Nat.digitChar (n % 16)

def escape (c : Char) : List Char :=
  match c with
  | '"' => ['\\', '"']
  | '\\' => ['\\', '\\']
  | '\x08' => ['\\', 'b']
  | '\t' => ['\\', 't']
  | '\n' => ['\\', 'n']
  | '\x0c' => ['\\', 'f']
  | '\r' => ['\\', 'r']
  | c =>
    if c.toNat < 0x20 then ['\\', 'u', '0', '0', hexDigit (c.toNat / 16), hexDigit c.toNat]
    else [c]

def writeString (s : String) : String := String.ofList ('"' :: s.toList.flatMap escape ++ ['"'])

def writeNatural (n : Nat) : String := toString n

def writeNull : String := "null"

def writeOption (write : α → String) : Option α → String
  | none => writeNull
  | some x => write x

def writeArray (items : List String) : String := "[" ++ String.intercalate "," items ++ "]"

def writeObject (members : List (String × String)) : String :=
  "\x7b" ++ String.intercalate "," (members.map fun (key, value) ↦ writeString key ++ ":" ++ value)
    ++ "\x7d"

end OneTape.Json
