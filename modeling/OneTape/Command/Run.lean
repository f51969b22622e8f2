import OneTape.Command.Options
import OneTape.Command.Report
import OneTape.Form.Machine
import OneTape.Machine.Run
import OneTape.Preset

namespace OneTape.Command

open Text

/-- What the command leaves behind: its exit code, what it has printed, and the errors it has
reported. The log is written to the same stream as the errors, but its lines are left out here. -/
structure Transcript where
  code : Nat
  output : String
  errors : String
deriving DecidableEq, Repr

def unlines (lines : List String) : String := String.join (lines.map (· ++ "\n"))

def alignLeft (width : Nat) (s : String) : String :=
  s ++ String.ofList (List.replicate (width - s.length) ' ')

def presetLines : List String :=
  Preset.all.mapIdx fun n preset ↦
    Report.alignRight 2 n ++ "  " ++ alignLeft 16 preset.name ++ " " ++ preset.description

def programOfRules (rules : List String) : Except Report Program :=
  let ruleOf (line : String) : Except Report Rule :=
    (Rule.ofLine line).mapError fun complaint ↦
      (Report.ofError (.badStatement complaint)).under ("Invalid statement '" ++ line ++ "'")
  (rules.mapM ruleOf).map Program.ofRules

def findPreset (key : String) : Except Report Preset :=
  (Preset.find key).mapError fun e ↦
    (Report.ofError e).under
      ("Unknown program '" ++ key ++ "' (available: " ++
        String.intercalate ", " Preset.names ++ ")")

abbrev Job := Program × Config

def jobOfPreset (preset : Preset) : Job := (preset.program, preset.config)

/-- The job of a text from outside. A blank text stands for the first preset, not for a program
without rows. -/
def jobOfText (text : String) : Except Report Job :=
  if text.toList.all isBlank then .ok (jobOfPreset .first)
  else ((Program.ofText text).mapError .ofError).map (·, .standard)

def jobOfInput : Option ByteArray → Except Report Job
  | none => .ok (jobOfPreset .first)
  | some bytes =>
    match String.fromUTF8? bytes with
    | none => .error ⟨"Failed to read from stdin", ["stream did not contain valid UTF-8"]⟩
    | some text => jobOfText text

def Options.needInput (o : Options) : Bool :=
  !o.listPresets && o.rules.isEmpty && o.preset.isNone

def job (o : Options) (input : Option ByteArray) : Except Report Job :=
  match o.rules, o.preset with
  | [], some key => (findPreset key).map jobOfPreset
  | [], none => jobOfInput input
  | rules, _ => (programOfRules rules).map (·, .standard)

def configure (o : Options) (config : Config) : Except Error Config := do
  let head ← match o.head with
    | none => .ok config.head
    | some text => Config.readHead text
  return ⟨o.tape.getD config.tape, o.state.getD config.state, head⟩

def start (program : Program) (config : Config) : Except Report Machine :=
  match (Machine.new program).buildFrom config with
  | (.ok (), m) => .ok m
  | (.error e, _) =>
    .error ((Report.ofError e).under ("Failed to start machine with tape '" ++ config.tape ++ "'"))

def shown (o : Options) (m : Machine) : List String :=
  if o.json then [m.snapshot.toJson]
  else if o.debug then
    ["State: " ++ alignLeft 8 m.state ++ " Tape: " ++ m.snapshot.tapeLine,
     "  " ++ m.explain.text]
  else []

def closing (o : Options) (ending : Ending) (m : Machine) : List String :=
  let remark := match ending with
    | .halted => ["\nMachine halted."]
    | .skipped => ["\nNo statement matches; machine stopped."]
    | _ => []
  (if o.debug then remark ++ ["\nFinal tape:"] else []) ++ [m.tape.text]

/-- Runs a machine and shows it before the first step and after every rule. The warnings that go to
the log, at the limit and for a move off the tape, are not among the errors. -/
def watch (o : Options) (m : Machine) : Transcript :=
  let (lines, ending, last) := Machine.follow
    (fun lines m ↦ (shown o m).reverse ++ lines) o.maxSteps (shown o m).reverse m
  match ending with
  | .failed e => ⟨1, unlines lines.reverse, (Report.ofError e).text⟩
  | ending => ⟨0, unlines (lines.reverse ++ closing o ending last), ""⟩

def run (o : Options) (input : Option ByteArray) : Transcript :=
  if o.listPresets then ⟨0, unlines presetLines, ""⟩
  else
    let machine := do
      let (program, config) ← job o input
      let config ← (configure o config).mapError .ofError
      start program config
    match machine with
    | .ok m => watch o m
    | .error report => ⟨1, "", report.text⟩

/-- The whole command on the words of a command line. A refused line exits with 2 and prints nothing
but the refusal. -/
def runWords (words : List String) (input : Option ByteArray) : Transcript :=
  match Options.ofWords words with
  | .ok o => run o input
  | .error refusal => ⟨2, "", "error: " ++ refusal.message ++ "\n"⟩

end OneTape.Command
