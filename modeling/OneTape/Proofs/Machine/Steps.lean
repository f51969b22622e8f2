import OneTape.Proofs.Machine.Coherence

namespace OneTape.Machine

def steps (m : Machine) : Nat → List (Except Error Outcome) × Machine
  | 0 => ([], m)
  | n + 1 => (m.step.1 :: (m.step.2.steps n).1, (m.step.2.steps n).2)

theorem steps_add (m : Machine) (n k : Nat) :
    m.steps (n + k) =
      ((m.steps n).1 ++ ((m.steps n).2.steps k).1, ((m.steps n).2.steps k).2) := by
  induction n generalizing m with
  | zero => simp [steps]
  | succ n ih => simp only [Nat.succ_add, steps, ih, List.cons_append]

theorem steps_succ (m : Machine) (n : Nat) :
    m.steps (n + 1) = ((m.steps n).1 ++ [(m.steps n).2.step.1], (m.steps n).2.step.2) :=
  m.steps_add n 1

theorem steps_of_fixed {m : Machine} {answer : Except Error Outcome} (h : m.step = (answer, m))
    (n : Nat) : m.steps n = (List.replicate n answer, m) := by
  induction n with
  | zero => rfl
  | succ n ih => simp only [steps, h, ih, List.replicate_succ]

theorem steps_invariant {P : Machine → Prop} (hstep : ∀ m, P m → P m.step.2) {m : Machine}
    (hm : P m) (n : Nat) : P (m.steps n).2 := by
  induction n generalizing m with
  | zero => exact hm
  | succ n ih => exact ih (hstep m hm)

theorem Coherent.step {m : Machine} (hm : m.Coherent) : m.step.2.Coherent := hm.perform .step

theorem onTape_step {m : Machine} (hm : m.head < m.tape.size) :
    m.step.2.head < m.step.2.tape.size :=
  (m.performed .step).onTape hm

theorem onTape_steps {m : Machine} (hm : m.head < m.tape.size) (n : Nat) :
    (m.steps n).2.head < (m.steps n).2.tape.size :=
  steps_invariant (P := fun r ↦ r.head < r.tape.size) (fun _ ↦ onTape_step) hm n

theorem coherent_build {m m' : Machine} {tape state : String} {head : Nat}
    (h : m.build tape state head = (.ok (), m')) : m'.Coherent := by
  by_cases hh : head = 0 ∨ (Tape.ofText tape).size < head
  · simp [build_outside m state hh] at h
  · rw [build_inside m state hh] at h
    cases h
    exact ⟨rfl, .inr (show head - 1 < (Tape.ofText tape).size by omega)⟩

section Stepped

variable {m m' : Machine} {answer : Except Error Outcome} (h : Stepped m answer m')

include h

theorem Stepped.program : m'.program = m.program := by cases h <;> rfl

theorem Stepped.size : m'.tape.size = m.tape.size := by
  cases h with
  | skipped | blocked | lost => rfl
  | moved | halted => exact List.length_set

theorem Stepped.read_of_ne {i : Nat} (hi : i ≠ m.head) : m'.tape.read i = m.tape.read i := by
  cases h with
  | skipped | blocked | lost => rfl
  | moved | halted => exact List.getElem?_set_ne (Ne.symm hi)

end Stepped

theorem program_steps (m : Machine) (n : Nat) : (m.steps n).2.program = m.program :=
  steps_invariant (P := fun r ↦ r.program = m.program) (fun r ↦ r.stepped.program.trans) rfl n

theorem size_steps (m : Machine) (n : Nat) : (m.steps n).2.tape.size = m.tape.size :=
  steps_invariant (P := fun r ↦ r.tape.size = m.tape.size) (fun r ↦ r.stepped.size.trans) rfl n

/-- So many steps, each of which moves the head. -/
inductive Moves : Nat → Machine → Machine → Prop
  | zero (m : Machine) : Moves 0 m m
  | cons {n : Nat} {a b c : Machine} :
      a.step = (.ok .moved, b) → Moves n b c → Moves (n + 1) a c

namespace Moves

variable {a b c : Machine} {n k : Nat}

theorem one (h : a.step = (.ok .moved, b)) : Moves 1 a b := .cons h (.zero b)

theorem trans (h : Moves n a b) (h' : Moves k b c) : Moves (n + k) a c := by
  induction h with
  | zero => simpa only [Nat.zero_add] using h'
  | cons hs h ih => simpa only [Nat.add_right_comm] using Moves.cons hs (ih h')

theorem steps (h : Moves n a b) : a.steps n = (List.replicate n (.ok .moved), b) := by
  induction h with
  | zero => rfl
  | cons hs h ih => simp only [Machine.steps, hs, ih, List.replicate_succ]

theorem steps_add (h : Moves n a b) (k : Nat) :
    a.steps (n + k) = (List.replicate n (.ok .moved) ++ (b.steps k).1, (b.steps k).2) := by
  rw [Machine.steps_add, h.steps]

end Moves

end OneTape.Machine
