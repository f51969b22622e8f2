import OneTape.Form.Machine
import OneTape.Form.Program
import OneTape.Proofs.Json.Record

namespace OneTape

open Json Text

theorem Action.codec_restores (action : Action) : Action.codec.Restores action :=
  Choice.name_restores (by cases action <;> rfl)

theorem Phase.codec_restores (phase : Phase) : Phase.codec.Restores phase :=
  Choice.name_restores (by cases phase <;> rfl)

theorem Rule.record_lawful : Rule.record.Lawful where
  nodup := by decide
  key_injective := by intro i j; cases i <;> cases j <;> decide
  build_content _ := rfl

theorem Rule.codec_restores (rule : Rule) : Rule.codec.Restores rule := by
  refine Record.toCodec_restores Rule.record_lawful fun i ↦ ?_
  cases i with
  | state => exact Codec.string_restores rule.state
  | input => exact Codec.string_restores rule.input
  | next => exact Codec.string_restores rule.next
  | output => exact Codec.string_restores rule.output
  | action => exact Action.codec_restores rule.action

theorem Tape.record_lawful : Tape.record.Lawful := ⟨by decide, fun _ _ _ ↦ rfl, fun _ ↦ rfl⟩

theorem Tape.codec_restores (tape : Tape) : Tape.codec.Restores tape :=
  Record.toCodec_restores Tape.record_lawful fun _ ↦
    Codec.list_restores fun cell _ ↦ Codec.string_restores cell

theorem Config.record_lawful : Config.record.Lawful where
  nodup := by decide
  key_injective := by intro i j; cases i <;> cases j <;> decide
  build_content _ := rfl

theorem Config.codec_restores {config : Config} (h : config.head ≤ maxWord) :
    Config.codec.Restores config := by
  refine Record.toCodec_restores Config.record_lawful fun i ↦ ?_
  cases i with
  | tape => exact Codec.string_restores config.tape
  | state => exact Codec.string_restores config.state
  | head => exact Codec.natural_restores h

theorem Slot.choice_filled : Slot.choice.lookup "Filled" = some (.holding fun s ↦
    (Rule.codec.read s).map fun (rule, s) ↦ (.filled rule, s)) := rfl

theorem Slot.choice_vacant : Slot.choice.lookup "Empty" = some (.single .vacant) := rfl

theorem Slot.codec_restores (slot : Slot) : Slot.codec.Restores slot := by
  cases slot with
  | vacant => exact Choice.reads_name _ Slot.choice_vacant (spellsString_writeString "Empty")
  | filled rule =>
    have hobject : ObjectOf (MemberOf "Filled" (Rule.codec.ReadsAs rule))
        (Slot.codec.write (.filled rule)).toList :=
      objectOf_write "Filled" (Rule.codec_restores rule)
    refine Choice.reads_holding _ Slot.choice_filled hobject fun t gap rest ht hgap hrest ↦ ?_
    rw [ht.read_append gap rest hgap hrest]
    rfl

theorem Program.record_lawful : Program.record.Lawful :=
  ⟨by decide, fun _ _ _ ↦ rfl, fun _ ↦ rfl⟩

theorem Program.codec_restores (program : Program) : Program.codec.Restores program :=
  Record.toCodec_restores Program.record_lawful fun _ ↦
    Codec.list_restores fun slot _ ↦ Slot.codec_restores slot

/-- Every value that has a JSON form is read back from the text that is written for it, whatever
the characters of its names, cells and tape are and however many rows or cells it has. The head of
a configuration has to fit in a word. -/
theorem decode_written :
    (∀ config : Config, config.head ≤ maxWord →
      Config.ofJson (Config.codec.write config) = .ok config) ∧
    (∀ rule : Rule, Rule.codec.decode (Rule.codec.write rule) = .ok rule) ∧
    (∀ action : Action, Action.codec.decode (Action.codec.write action) = .ok action) ∧
    (∀ phase : Phase, Phase.codec.decode (Phase.codec.write phase) = .ok phase) ∧
    (∀ slot : Slot, Slot.codec.decode (Slot.codec.write slot) = .ok slot) ∧
    (∀ program : Program, Program.codec.decode (Program.codec.write program) = .ok program) ∧
    ∀ tape : Tape, Tape.codec.decode (Tape.codec.write tape) = .ok tape := by
  refine ⟨fun config h ↦ ?_, fun rule ↦ (Rule.codec_restores rule).decode,
    fun action ↦ (Action.codec_restores action).decode,
    fun phase ↦ (Phase.codec_restores phase).decode, fun slot ↦ (Slot.codec_restores slot).decode,
    fun program ↦ (Program.codec_restores program).decode,
    fun tape ↦ (Tape.codec_restores tape).decode⟩
  rw [Config.ofJson, (Config.codec_restores h).decode]
  rfl

theorem decode_written_largest :
    let config : Config := ⟨"\"\\,\u0001\u2028😀", "", 18446744073709551615⟩
    config.head ≤ maxWord ∧
    Config.codec.write config =
      "\x7b\"tape\":\"\\\"\\\\,\\u0001\u2028😀\",\"state\":\"\",\"head\":18446744073709551615\x7d" ∧
    Config.ofJson (Config.codec.write config) = .ok config := by
  intro config
  have h : config.head ≤ maxWord := by decide
  exact ⟨h, by decide +kernel, decode_written.1 config h⟩

end OneTape
