import OneTape.Proofs.Machine.Steps
import OneTape.Proofs.Tape

namespace OneTape.Machine

theorem Coherent.build_text {m m' : Machine} (hm : m.Coherent) (hs : m.phase = .started)
    (hc : ∀ cell ∈ m.tape.cells, ',' ∉ cell.toList) (hp : m'.program = m.program) :
    m'.build m.tape.text m.state (m.head + 1) = (.ok (), m) := by
  have hlt : m.head < m.tape.size := hm.head_lt hs
  have hne : m.tape.cells ≠ [] := List.ne_nil_of_length_pos (Nat.zero_lt_of_lt hlt)
  have htape : Tape.ofText m.tape.text = m.tape := Tape.ofText_text hne hc
  have hhead : ¬ (m.head + 1 = 0 ∨ (Tape.ofText m.tape.text).size < m.head + 1) := by
    rw [htape]
    omega
  rw [build_inside m' m.state hhead]
  refine congrArg (Prod.mk _) (Eq.trans ?_ hm.settled)
  exact refresh_congr hp htape rfl rfl hs.symm

def started (program : Program) (state : String) (cells : List String) (head : Nat) : Machine :=
  refresh ⟨program, ⟨cells⟩, state, head, .started, none⟩

variable {program : Program} {state : String} {cells : List String} {head : Nat}

theorem onTape_started (h : head < cells.length) :
    (started program state cells head).head < (started program state cells head).tape.size := h

theorem coherent_started (h : head < cells.length) :
    (started program state cells head).Coherent := ⟨rfl, .inr (onTape_started h)⟩

theorem build_started (program : Program) (state : String) (h : head < cells.length)
    (hc : ∀ cell ∈ cells, ',' ∉ cell.toList) :
    (new program).build (Tape.text ⟨cells⟩) state (head + 1) =
      (.ok (), started program state cells head) :=
  (coherent_started h).build_text rfl hc rfl

end OneTape.Machine
