import OneTape.Proofs.Machine.Phase
import OneTape.Proofs.Machine.Steps

namespace OneTape.Machine

inductive Tail : List (Except Error Outcome) → Prop where
  | none : Tail []
  | halted (n : Nat) : Tail (.ok .halted :: List.replicate n (.ok .skipped))
  | stalled (n : Nat) : Tail (List.replicate (n + 1) (.ok .skipped))
  | blocked (n position : Nat) : Tail (List.replicate (n + 1) (.error (.offTape position)))

variable {m m' : Machine}

def stopped (m : Machine) (rule : Rule) : Machine :=
  { m.carryOut rule m.head with phase := .halted, active := none }

theorem Stepped.eq_of_skipped (h : Stepped m (.ok .skipped) m') : m' = m := by
  cases h
  rfl

theorem Stepped.eq_of_error {e : Error} (h : Stepped m (.error e) m') :
    e = .offTape m.head ∧ m' = m := by
  cases h <;> exact ⟨rfl, rfl⟩

theorem Stepped.eq_of_halted (h : Stepped m (.ok .halted) m') :
    ∃ rule row, m.activeRule? = some (rule, row) ∧ rule.action = .halt ∧ m' = m.stopped rule := by
  cases h with
  | halted ha _ hr => exact ⟨_, _, ha, hr, rfl⟩

theorem step_of_skipped (h : m.step.1 = .ok .skipped) : m.step = (.ok .skipped, m) :=
  Prod.ext h (stepped_of_answer h).eq_of_skipped

theorem step_of_error {e : Error} (h : m.step.1 = .error e) : m.step = (.error e, m) :=
  Prod.ext h (stepped_of_answer h).eq_of_error.2

theorem error_of_step {e : Error} (h : m.step.1 = .error e) : e = .offTape m.head :=
  (stepped_of_answer h).eq_of_error.1

theorem step_stopped (m : Machine) (rule : Rule) :
    (m.stopped rule).step = (.ok .skipped, m.stopped rule) :=
  step_skipped rfl

theorem steps_tail (m : Machine) (n : Nat) :
    ∃ moves tail, (m.steps n).1 = List.replicate moves (.ok .moved) ++ tail ∧ Tail tail := by
  -- A first step that is no move leads to a machine on which every further step does the same.
  induction n generalizing m with
  | zero => exact ⟨0, [], rfl, .none⟩
  | succ n ih =>
    cases ha : m.step.1 with
    | ok outcome =>
      cases outcome with
      | moved =>
        obtain ⟨moves, tail, hrest, htail⟩ := ih m.step.2
        refine ⟨moves + 1, tail, ?_, htail⟩
        simp only [steps, ha, hrest, List.replicate_succ, List.cons_append]
      | halted =>
        obtain ⟨rule, row, -, -, hstop⟩ := (stepped_of_answer ha).eq_of_halted
        have hrest := steps_of_fixed (m.step_stopped rule) n
        refine ⟨0, _, ?_, .halted n⟩
        simp only [steps, ha, hstop, hrest, List.replicate_zero, List.nil_append]
      | skipped =>
        rw [steps_of_fixed (step_of_skipped ha)]
        exact ⟨0, _, rfl, .stalled n⟩
    | error e =>
      obtain rfl := error_of_step ha
      rw [steps_of_fixed (step_of_error ha)]
      exact ⟨0, _, rfl, .blocked n m.head⟩

/-- Where a step finds no rule or fails, no later step changes anything. -/
theorem steps_stay (n : Nat)
    (h : (m.steps n).2.step.1 = .ok .skipped ∨ ∃ e, (m.steps n).2.step.1 = .error e) (k : Nat) :
    (m.steps (n + k)).2 = (m.steps n).2 := by
  rw [steps_add]
  obtain hskip | ⟨e, herror⟩ := h
  · rw [steps_of_fixed (step_of_skipped hskip)]
  · rw [steps_of_fixed (step_of_error herror)]

theorem steps_stopped (n : Nat) (h : (m.steps n).2.step.1 = .ok .halted) :
    ∃ rule row, (m.steps n).2.activeRule? = some (rule, row) ∧ rule.action = .halt ∧
      ∀ k, (m.steps (n + 1 + k)).2 = (m.steps n).2.stopped rule := by
  obtain ⟨rule, row, ha, hr, hstop⟩ := (stepped_of_answer h).eq_of_halted
  refine ⟨rule, row, ha, hr, fun k ↦ ?_⟩
  rw [steps_add, steps_succ, hstop, steps_of_fixed (step_stopped _ rule)]

/-- A run makes moves, and then it halts and is skipped for ever, or is skipped for ever, or fails
for ever at one position. Once it is skipped or fails the machine stays as it is, and once it halts
it stays as the rule has left it. It takes a step by a rule that halts to make a machine halted, and
a reset or a build that succeeds to make it anything else again. -/
theorem steps_shape (m : Machine) :
    (∀ n, ∃ moves tail, (m.steps n).1 = List.replicate moves (.ok .moved) ++ tail ∧ Tail tail) ∧
    (∀ n, (m.steps n).2.step.1 = .ok .skipped ∨ (∃ e, (m.steps n).2.step.1 = .error e) →
      ∀ k, (m.steps (n + k)).2 = (m.steps n).2) ∧
    (∀ n, (m.steps n).2.step.1 = .ok .halted →
      ∃ rule row, (m.steps n).2.activeRule? = some (rule, row) ∧ rule.action = .halt ∧
        ∀ k, (m.steps (n + 1 + k)).2 = (m.steps n).2.stopped rule) ∧
    (∀ op, m.phase ≠ .halted → (m.perform op).2.phase = .halted →
      op = .step ∧ (m.perform op).1 = .ok (.stepped .halted) ∧
        ∃ rule row, m.activeRule? = some (rule, row) ∧ rule.action = .halt) ∧
    (∀ op, m.phase = .halted → (m.perform op).2.phase ≠ .halted →
      op = .reset ∨ op.builds ∧ (m.perform op).1 = .ok .done) ∧
    ∀ ops, m.phase = .halted →
      (m.performAll ops).2.phase = .halted ∨ .reset ∈ ops ∨ Built ops (m.performAll ops).1 :=
  ⟨m.steps_tail, fun _ h ↦ steps_stay _ h, fun _ h ↦ steps_stopped _ h,
    fun _ ↦ halts_of_perform, fun _ ↦ released_of_perform, fun ops h ↦ halted_performAll h ops⟩

end OneTape.Machine
