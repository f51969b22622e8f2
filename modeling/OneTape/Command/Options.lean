import OneTape.Text.Basic

namespace OneTape.Command

open Text

inductive Switch where
  | listPresets
  | debug
  | json
deriving DecidableEq, Repr

inductive Setting where
  | tape
  | state
  | head
  | rule
  | preset
  | maxSteps
deriving DecidableEq, Repr

inductive Given where
  | switch (switch : Switch)
  | setting (setting : Setting) (value : String)
deriving DecidableEq, Repr

inductive Refusal where
  | unknownOption (word : String)
  | strayWord (word : String)
  | noValue (word : String)
  | strayValue (word : String)
  | repeated
  | badNumber (value : String)
  | conflict
deriving DecidableEq, Repr

def Refusal.message : Refusal → String
  | unknownOption word => "unknown option " ++ word
  | strayWord word => "unexpected argument " ++ word
  | noValue word => "a value is needed for " ++ word
  | strayValue word => "no value is taken by " ++ word
  | repeated => "an option is given more than once"
  | badNumber value => "not a number of steps: " ++ value
  | conflict => "a preset cannot be used with rules"

def long? : String → Option (Switch ⊕ Setting)
  | "list-presets" => some (.inl .listPresets)
  | "debug" => some (.inl .debug)
  | "json" => some (.inl .json)
  | "tape" => some (.inr .tape)
  | "state" => some (.inr .state)
  | "head" => some (.inr .head)
  | "rule" => some (.inr .rule)
  | "preset" => some (.inr .preset)
  | "max-steps" => some (.inr .maxSteps)
  | _ => none

def short? : Char → Option (Switch ⊕ Setting)
  | 'd' => some (.inl .debug)
  | 't' => some (.inr .tape)
  | 's' => some (.inr .state)
  | 'r' => some (.inr .rule)
  | 'p' => some (.inr .preset)
  | _ => none

/-- Options given by one word, and perhaps a last one whose value is the next word. -/
abbrev Word := List Given × Option Setting

def readLong (word : String) (body : List Char) : Except Refusal Word :=
  let name := String.ofList (body.takeWhile (· != '='))
  match long? name, body.dropWhile (· != '=') with
  | none, _ => .error (.unknownOption word)
  | some (.inl switch), [] => .ok ([.switch switch], none)
  | some (.inl _), _ => .error (.strayValue word)
  | some (.inr setting), [] => .ok ([], some setting)
  | some (.inr setting), _ :: value => .ok ([.setting setting (String.ofList value)], none)

/-- A word of short options, of which the first that takes a value takes all that follows it, but
for an equals sign in front. -/
def readShort (word : String) : List Char → Except Refusal Word
  | [] => .ok ([], none)
  | c :: body =>
    match short? c, body with
    | none, _ => .error (.unknownOption word)
    | some (.inl switch), _ =>
      (readShort word body).map fun (given, last) ↦ (.switch switch :: given, last)
    | some (.inr setting), [] => .ok ([], some setting)
    | some (.inr setting), '=' :: value => .ok ([.setting setting (String.ofList value)], none)
    | some (.inr setting), value => .ok ([.setting setting (String.ofList value)], none)

def readOption (word : String) : Except Refusal Word :=
  match word.toList with
  | '-' :: '-' :: body => readLong word body
  | '-' :: c :: body => readShort word (c :: body)
  | _ => .error (.strayWord word)

def isValue (word : String) : Bool := word.toList.head? != some '-' || word == "-"

/-- Two hyphens end the options, and nothing may follow. -/
def readWords : List String → Except Refusal (List Given)
  | [] => .ok []
  | word :: words =>
    if word = "--" then
      match words with
      | [] => .ok []
      | stray :: _ => .error (.strayWord stray)
    else
      match readOption word with
      | .error refusal => .error refusal
      | .ok (given, none) => (readWords words).map (given ++ ·)
      | .ok (given, some setting) =>
        match words with
        | [] => .error (.noValue word)
        | value :: words =>
          if isValue value then
            (readWords words).map fun more ↦ given ++ .setting setting value :: more
          else .error (.noValue word)

structure Options where
  tape : Option String
  state : Option String
  head : Option String
  rules : List String
  preset : Option String
  listPresets : Bool
  debug : Bool
  json : Bool
  maxSteps : Nat
deriving DecidableEq, Repr

def valuesOf (setting : Setting) (given : List Given) : List String :=
  given.filterMap fun
    | .setting s value => if s = setting then some value else none
    | .switch _ => none

def valueOf (setting : Setting) (given : List Given) : Except Refusal (Option String) :=
  match valuesOf setting given with
  | [] => .ok none
  | [value] => .ok (some value)
  | _ => .error .repeated

def isGiven (switch : Switch) (given : List Given) : Except Refusal Bool :=
  match given.count (.switch switch) with
  | 0 => .ok false
  | 1 => .ok true
  | _ => .error .repeated

def readLimit : Option String → Except Refusal Nat
  | none => .ok 10000
  | some value =>
    match readNumeral? value.toList with
    | some n => .ok n
    | none => .error (.badNumber value)

def Options.ofGiven (given : List Given) : Except Refusal Options := do
  let options : Options :=
    { tape := ← valueOf .tape given
      state := ← valueOf .state given
      head := ← valueOf .head given
      rules := valuesOf .rule given
      preset := ← valueOf .preset given
      listPresets := ← isGiven .listPresets given
      debug := ← isGiven .debug given
      json := ← isGiven .json given
      maxSteps := ← readLimit (← valueOf .maxSteps given) }
  if options.preset.isSome && !options.rules.isEmpty then throw .conflict
  return options

def Options.ofWords (words : List String) : Except Refusal Options := do
  Options.ofGiven (← readWords words)

end OneTape.Command
