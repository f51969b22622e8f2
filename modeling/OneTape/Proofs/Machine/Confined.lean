import Mathlib.Data.Finset.Dedup
import Mathlib.Data.Finset.Insert
import OneTape.Proofs.Machine.Rebuild
import OneTape.Proofs.Machine.Textbook

namespace OneTape

namespace Program

def states (p : Program) (start : String) : Finset String :=
  insert start (p.rules.map Rule.next).toFinset

def symbols (p : Program) (tape : Tape) : Finset String :=
  (tape.cells ++ p.rules.map Rule.output).toFinset

variable {p : Program} {start state : String} {tape : Tape} {symbol : String}

theorem mem_states :
    state ∈ p.states start ↔ state = start ∨ ∃ rule ∈ p.rules, rule.next = state := by
  simp [states]

theorem mem_symbols :
    symbol ∈ p.symbols tape ↔ symbol ∈ tape.cells ∨ ∃ rule ∈ p.rules, rule.output = symbol := by
  simp [symbols]

end Program

namespace Machine

variable {p : Program} {start : String} {tape : Tape} {m m' : Machine}

/-- What a machine has of its program, and of the state and the tape it began with. -/
structure Confined (p : Program) (start : String) (tape : Tape) (m : Machine) : Prop where
  coherent : m.Coherent
  program : m.program = p
  size : m.tape.size = tape.size
  state : m.state ∈ p.states start
  cells : ∀ cell ∈ m.tape.cells, cell ∈ p.symbols tape

theorem Confined.carryOut (hm : m.Confined p start tape) {rule : Rule} {row : Nat}
    (h : m.activeRule? = some (rule, row)) :
    rule.next ∈ p.states start ∧
      ∀ cell ∈ m.tape.cells.set m.head rule.output, cell ∈ p.symbols tape := by
  have hrule : rule ∈ p.rules := hm.program ▸ hm.coherent.mem_rules h
  refine ⟨Program.mem_states.2 (.inr ⟨rule, hrule, rfl⟩), fun cell hcell ↦ ?_⟩
  obtain hold | rfl := List.mem_or_eq_of_mem_set hcell
  · exact hm.cells cell hold
  · exact Program.mem_symbols.2 (.inr ⟨rule, hrule, rfl⟩)

theorem Confined.step (hm : m.Confined p start tape) : m.step.2.Confined p start tape := by
  have h := m.stepped
  have hcoherent := hm.coherent.step
  have hprogram := h.program.trans hm.program
  have hsize := h.size.trans hm.size
  generalize m.step.1 = answer, m.step.2 = m' at *
  cases h with
  | skipped | blocked | lost => exact hm
  | moved ha | halted ha =>
    obtain ⟨hstate, hcells⟩ := hm.carryOut ha
    exact ⟨hcoherent, hprogram, hsize, hstate, hcells⟩

theorem Confined.steps (hm : m.Confined p start tape) (n : Nat) :
    (m.steps n).2.Confined p start tape :=
  steps_invariant (fun _ ↦ Confined.step) hm n

theorem confined_build {text : String} {head : Nat} (h : m.build text start head = (.ok (), m')) :
    m'.Confined m.program start (.ofText text) := by
  have hm := coherent_build h
  obtain ⟨hstart, hprogram⟩ := textbook_build h
  have hstate : m'.state = start := congrArg Textbook.state hstart
  have hcells : m'.tape.cells = (Tape.ofText text).cells := congrArg Textbook.cells hstart
  refine ⟨hm, hprogram, congrArg List.length hcells, ?_, fun cell hcell ↦ ?_⟩
  · exact Program.mem_states.2 (.inl hstate)
  · exact Program.mem_symbols.2 (.inl (hcells ▸ hcell))

end Machine

end OneTape
