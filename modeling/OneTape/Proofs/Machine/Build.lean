import OneTape.Proofs.Machine.Steps
import OneTape.Proofs.Program.Edit
import OneTape.Proofs.Tape

namespace OneTape.Machine

def NamesCell (config : Config) : Prop :=
  1 ≤ config.head ∧ config.head ≤ 1 + config.tape.toList.count ','

structure RunsFrom (m : Machine) (p : Program) (config : Config) : Prop where
  phase : m.phase = .started
  program : m.program = p
  tape : m.tape.text = config.tape
  state : m.state = config.state
  head : m.head + 1 = config.head
  /-- The symbol under the head is the piece of the text that the head counts to, and the rule that
  comes next is the first one with the state and this piece as its key. -/
  next : ∃ piece, (config.tape.toList.splitOn ',')[config.head - 1]? = some piece ∧
    m.symbol? = some (String.ofList piece) ∧
    ∀ rule row, m.activeRule? = some (rule, row) ↔
      p.FirstIn Set.univ config.state (String.ofList piece) rule row

structure Builds (m : Machine) (config : Config) (reply : Reply Unit) : Prop where
  ok_iff : reply.1 = .ok () ↔ NamesCell config
  refused : ¬ NamesCell config →
    reply = (.error (.headOutside config.head (1 + config.tape.toList.count ',')), m)
  runs : NamesCell config → RunsFrom reply.2 m.program config

variable {m m' : Machine} {config : Config}

theorem not_namesCell_iff :
    ¬ NamesCell config ↔ config.head = 0 ∨ (Tape.ofText config.tape).size < config.head := by
  rw [NamesCell, Tape.size_ofText]
  omega

theorem buildFrom_of_not_namesCell (m : Machine) (h : ¬ NamesCell config) : m.buildFrom config =
    (.error (.headOutside config.head (1 + config.tape.toList.count ',')), m) := by
  rw [buildFrom, build_outside m config.state (not_namesCell_iff.1 h), Tape.size_ofText,
    Nat.add_comm]

theorem buildFrom_of_namesCell (m : Machine) (h : NamesCell config) : m.buildFrom config =
    (.ok (), { m with tape := .ofText config.tape, state := config.state, head := config.head - 1,
                      phase := .started }.refresh) :=
  build_inside m config.state fun hn ↦ not_namesCell_iff.2 hn h

theorem read_ofText (tape : String) (position : Nat) :
    (Tape.ofText tape).read position = (tape.toList.splitOn ',')[position]?.map String.ofList :=
  List.getElem?_map

theorem runsFrom_of_buildFrom (h : m.buildFrom config = (.ok (), m')) :
    RunsFrom m' m.program config := by
  have hm' : m'.Coherent := coherent_build h
  by_cases hn : NamesCell config
  · rw [buildFrom_of_namesCell m hn] at h
    cases h
    obtain ⟨symbol, hsymbol⟩ := exists_read (hm'.head_lt rfl)
    have hread : (Tape.ofText config.tape).read (config.head - 1) = some symbol := hsymbol
    rw [read_ofText, Option.map_eq_some_iff] at hread
    obtain ⟨piece, hpiece, rfl⟩ := hread
    refine ⟨rfl, rfl, Tape.text_ofText config.tape, rfl, Nat.sub_add_cancel hn.1, piece, hpiece,
      hsymbol, fun rule row ↦ ?_⟩
    rw [hm'.activeRule?_eq, symbol?_of_started rfl, hsymbol]
    exact Program.lookup_eq_some_iff
  · rw [buildFrom_of_not_namesCell m hn] at h
    cases h

theorem builds (m : Machine) (config : Config) : Builds m config (m.buildFrom config) := by
  by_cases h : NamesCell config
  · have hok := m.buildFrom_of_namesCell h
    refine ⟨⟨fun _ ↦ h, fun _ ↦ ?_⟩, fun hn ↦ absurd h hn, fun _ ↦ ?_⟩
    · rw [hok]
    · exact runsFrom_of_buildFrom (Prod.ext (by rw [hok]) rfl)
  · have hfailed := m.buildFrom_of_not_namesCell h
    refine ⟨⟨fun hok ↦ ?_, fun hn ↦ absurd hn h⟩, fun _ ↦ hfailed, fun hn ↦ absurd hn h⟩
    rw [hfailed] at hok
    cases hok

/-- Whatever a machine is and whatever it is built from, the build succeeds just when the head names
a cell. Otherwise it tells the head and the number of cells and leaves the machine as it is. If it
succeeds the machine runs with its program on the text of the tape, the state and the head as they
were given; the rule that comes next is the first one for the state and the symbol there. -/
theorem build_loads_verbatim (m : Machine) :
    (∀ tape state head, Builds m ⟨tape, state, head⟩ (m.build tape state head)) ∧
    ∀ config, Builds m config (m.buildFrom config) :=
  ⟨fun tape state head ↦ m.builds ⟨tape, state, head⟩, m.builds⟩

end OneTape.Machine
