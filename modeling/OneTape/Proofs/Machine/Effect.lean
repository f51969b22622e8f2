import OneTape.Machine.Operation

namespace OneTape.Machine

@[simp] theorem refresh_program (m : Machine) : m.refresh.program = m.program := rfl

@[simp] theorem refresh_tape (m : Machine) : m.refresh.tape = m.tape := rfl

@[simp] theorem refresh_state (m : Machine) : m.refresh.state = m.state := rfl

@[simp] theorem refresh_head (m : Machine) : m.refresh.head = m.head := rfl

@[simp] theorem refresh_phase (m : Machine) : m.refresh.phase = m.phase := rfl

theorem refresh_active (m : Machine) : m.refresh.active =
    m.symbol?.bind fun symbol ↦ (m.program.lookup m.state symbol).map Prod.snd := by
  cases h : m.symbol? with
  | none => simp [refresh, h]
  | some symbol => cases hl : m.program.lookup m.state symbol <;> simp [refresh, h, hl]

@[simp] theorem refresh_refresh (m : Machine) : m.refresh.refresh = m.refresh := rfl

theorem refresh_congr {m m' : Machine} (hp : m.program = m'.program) (ht : m.tape = m'.tape)
    (hs : m.state = m'.state) (hh : m.head = m'.head) (hr : m.phase = m'.phase) :
    m.refresh = m'.refresh := by
  obtain ⟨program, tape, state, head, phase, active⟩ := m
  dsimp only at hp ht hs hh hr
  subst hp ht hs hh hr
  rfl

def carryOut (m : Machine) (rule : Rule) (head : Nat) : Machine :=
  { m with tape := ⟨m.tape.cells.set m.head rule.output⟩, state := rule.next, head := head }

/-- What a step does. The rule that comes next may be missing, or lead off the tape, or be carried
out. A head that is off the tape already would fail too. -/
inductive Stepped (m : Machine) : Except Error Outcome → Machine → Prop where
  | skipped (h : m.activeRule? = none) : Stepped m (.ok .skipped) m
  | blocked {rule : Rule} {row : Nat} (h : m.activeRule? = some (rule, row))
      (ht : m.target? rule.action = none) : Stepped m (.error (.offTape m.head)) m
  | lost {rule : Rule} {row : Nat} (h : m.activeRule? = some (rule, row))
      (hm : ¬ m.head < m.tape.size) : Stepped m (.error (.offTape m.head)) m
  | moved {rule : Rule} {row head : Nat} (h : m.activeRule? = some (rule, row))
      (ht : m.target? rule.action = some head) (hm : m.head < m.tape.size)
      (ha : rule.action ≠ .halt) : Stepped m (.ok .moved) (m.carryOut rule head).refresh
  | halted {rule : Rule} {row : Nat} (h : m.activeRule? = some (rule, row))
      (hm : m.head < m.tape.size) (ha : rule.action = .halt) :
      Stepped m (.ok .halted) { m.carryOut rule m.head with phase := .halted, active := none }

theorem step_skipped {m : Machine} (h : m.activeRule? = none) : m.step = (.ok .skipped, m) := by
  simp only [step, h]

section Rule

variable {m : Machine} {rule : Rule} {row : Nat} (h : m.activeRule? = some (rule, row))

include h

theorem step_blocked (ht : m.target? rule.action = none) :
    m.step = (.error (.offTape m.head), m) := by
  simp only [step, h, ht]

theorem step_lost (hm : ¬ m.head < m.tape.size) : m.step = (.error (.offTape m.head), m) := by
  cases ht : m.target? rule.action with
  | none => exact step_blocked h ht
  | some head => simp only [step, h, ht, Tape.write, if_neg hm]

theorem step_moved {head : Nat} (ht : m.target? rule.action = some head)
    (hm : m.head < m.tape.size) (ha : rule.action ≠ .halt) :
    m.step = (.ok .moved, (m.carryOut rule head).refresh) := by
  simp only [step, h, ht, Tape.write, if_pos hm]
  cases hr : rule.action with
  | halt => exact absurd hr ha
  | left | right => rfl

theorem step_halted (hm : m.head < m.tape.size) (ha : rule.action = .halt) :
    m.step = (.ok .halted, { m.carryOut rule m.head with phase := .halted, active := none }) := by
  simp only [step, h, ha, target?, Tape.write, if_pos hm]
  rfl

end Rule

theorem stepped (m : Machine) : Stepped m m.step.1 m.step.2 := by
  cases h : m.activeRule? with
  | none => rw [step_skipped h]; exact .skipped h
  | some found =>
    obtain ⟨rule, row⟩ := found
    by_cases hm : m.head < m.tape.size
    · by_cases ha : rule.action = .halt
      · rw [step_halted h hm ha]; exact .halted h hm ha
      · cases ht : m.target? rule.action with
        | none => rw [step_blocked h ht]; exact .blocked h ht
        | some head => rw [step_moved h ht hm ha]; exact .moved h ht hm ha
    · rw [step_lost h hm]; exact .lost h hm

theorem stepped_of_answer {m : Machine} {answer : Except Error Outcome} (h : m.step.1 = answer) :
    Stepped m answer m.step.2 :=
  h ▸ m.stepped

def Operation.builds : Operation → Bool
  | .build .. | .buildFrom _ => true
  | _ => false

/-- What an operation does. A failure leaves the machine as it is, and an edit takes an idle machine
and gives it another program. -/
inductive Performed (m : Machine) : Operation → Except Error Answer → Machine → Prop where
  | failed (op : Operation) (e : Error) : Performed m op (.error e) m
  | built {op : Operation} (hop : op.builds) (tape : Tape) (state : String) {head : Nat}
      (hh : head < tape.size) :
      Performed m op (.ok .done)
        { m with tape := tape, state := state, head := head, phase := .started }.refresh
  | stepped {outcome : Outcome} {m' : Machine} (h : Stepped m (.ok outcome) m') :
      Performed m .step (.ok (.stepped outcome)) m'
  | reset : Performed m .reset (.ok .done) m.reset
  | edited {op : Operation} (hop : op.builds = false) (hp : m.phase = .idle) (answer : Answer)
      (program : Program) : Performed m op (.ok answer) { m with program := program }

theorem whenEditable_idle {α : Type} {m : Machine} (h : m.phase = .idle) (edit : Reply α) :
    m.whenEditable edit = edit := by
  simp only [whenEditable, h]

theorem whenEditable_locked {α : Type} {m : Machine} (h : m.phase ≠ .idle) (edit : Reply α) :
    m.whenEditable edit = (.error (.locked m.phase), m) := by
  cases hp : m.phase with
  | idle => exact absurd hp h
  | started | halted => simp only [whenEditable, hp]

theorem whenEditable_whenEditable {α : Type} (m : Machine) (edit : Reply α) :
    m.whenEditable (m.whenEditable edit) = m.whenEditable edit := by
  by_cases h : m.phase = .idle
  · rw [whenEditable_idle h]
  · rw [whenEditable_locked h, whenEditable_locked h]

theorem editRule_bad {line : String} {complaint : Statement.Complaint}
    (h : Rule.ofLine line = .error complaint) (m : Machine) (row : Option Nat) :
    m.editRule row line = m.whenEditable (.error (.badStatement complaint), m) := by
  simp only [editRule, h]

/-- The second look at the lock that editing with the line of a rule takes changes nothing. -/
theorem editRule_eq {line : String} {rule : Rule} (h : Rule.ofLine line = .ok rule)
    (m : Machine) (row : Option Nat) : m.editRule row line = m.insertRule rule row := by
  simp only [editRule, h, insertRule, whenEditable_whenEditable]

theorem performed_edit {α : Type} {m : Machine} {op : Operation} (hop : op.builds = false)
    {f : α → Answer} {edit : Reply α}
    (h : (∃ e, edit = (.error e, m)) ∨ ∃ a program, edit = (.ok a, { m with program := program })) :
    Performed m op ((m.whenEditable edit).map f).1 ((m.whenEditable edit).map f).2 := by
  by_cases hp : m.phase = .idle
  · rw [whenEditable_idle hp]
    obtain ⟨e, rfl⟩ | ⟨a, program, rfl⟩ := h
    · exact .failed op e
    · exact .edited hop hp (f a) program
  · rw [whenEditable_locked hp]
    exact .failed op _

theorem build_outside (m : Machine) {tape : String} (state : String) {head : Nat}
    (h : head = 0 ∨ (Tape.ofText tape).size < head) :
    m.build tape state head = (.error (.headOutside head (Tape.ofText tape).size), m) := by
  simp only [build, if_pos h]

theorem build_inside (m : Machine) {tape : String} (state : String) {head : Nat}
    (h : ¬ (head = 0 ∨ (Tape.ofText tape).size < head)) :
    m.build tape state head =
      (.ok (), { m with tape := .ofText tape, state := state, head := head - 1,
                        phase := .started }.refresh) := by
  simp only [build, if_neg h]

theorem performed_build (m : Machine) {op : Operation} (hop : op.builds) (tape state : String)
    (head : Nat) : Performed m op ((m.build tape state head).map fun _ ↦ Answer.done).1
      ((m.build tape state head).map fun _ ↦ Answer.done).2 := by
  by_cases h : head = 0 ∨ (Tape.ofText tape).size < head
  · rw [build_outside m state h]
    exact .failed op _
  · rw [build_inside m state h]
    exact .built hop _ _ (by omega)

theorem performed (m : Machine) (op : Operation) :
    Performed m op (m.perform op).1 (m.perform op).2 := by
  cases op with
  | build tape state head => exact m.performed_build rfl tape state head
  | buildFrom config => exact m.performed_build rfl config.tape config.state config.head
  | step =>
    change Performed m .step (m.step.1.map .stepped) m.step.2
    have h := m.stepped
    generalize m.step.1 = answer, m.step.2 = m' at h ⊢
    cases answer with
    | ok outcome => exact .stepped h
    | error e => cases h <;> exact .failed .step _
  | reset => exact .reset
  | insertRule rule row => exact performed_edit rfl (.inr ⟨_, _, rfl⟩)
  | addVacantRow => exact performed_edit rfl (.inr ⟨_, _, rfl⟩)
  | editRule row line =>
    cases h : Rule.ofLine line with
    | error complaint =>
      rw [perform, editRule_bad h]
      exact performed_edit rfl (.inl ⟨_, rfl⟩)
    | ok rule =>
      rw [perform, editRule_eq h]
      exact performed_edit rfl (.inr ⟨_, _, rfl⟩)
  | removeRule row =>
    apply performed_edit rfl
    cases m.program.erase? row with
    | none => exact .inl ⟨_, rfl⟩
    | some program => exact .inr ⟨_, _, rfl⟩

theorem performed_of_answer {m : Machine} {op : Operation} {answer : Except Error Answer}
    (h : (m.perform op).1 = answer) : Performed m op answer (m.perform op).2 :=
  h ▸ m.performed op

end OneTape.Machine
