import OneTape.Proofs.Machine.Phase
import OneTape.Proofs.Machine.Steps

namespace OneTape.Machine

def Operation.edits : Operation → Bool
  | .insertRule .. | .addVacantRow | .editRule .. | .removeRule _ => true
  | _ => false

theorem Operation.not_builds_of_edits {op : Operation} (h : op.edits) : ¬ op.builds := by
  cases op <;> simp_all [edits, builds]

theorem Reply.map_error_iff {α β : Type} {f : α → β} {reply : Reply α} {e : Error} :
    (reply.map f).1 = .error e ↔ reply.1 = .error e := by
  obtain ⟨answer, m⟩ := reply
  cases answer <;> simp [Reply.map, Except.map]

variable {m : Machine} {op : Operation}

theorem perform_edit_locked (hop : op.edits) (h : m.phase ≠ .idle) :
    m.perform op = (.error (.locked m.phase), m) := by
  cases op with
  | insertRule | addVacantRow | editRule | removeRule =>
    exact congrArg (Reply.map _) (whenEditable_locked h _)
  | build | buildFrom | step | reset => cases hop

section Idle

variable (h : m.phase = .idle)

include h

theorem exists_insertRule (rule : Rule) (row : Option Nat) :
    ∃ stored, (m.insertRule rule row).1 = .ok stored := by
  rw [insertRule, whenEditable_idle h]
  exact ⟨_, rfl⟩

theorem exists_addVacantRow : ∃ stored, m.addVacantRow.1 = .ok stored := by
  rw [addVacantRow, whenEditable_idle h]
  exact ⟨_, rfl⟩

theorem editRule_error_iff (row : Option Nat) (line : String) (e : Error) :
    (m.editRule row line).1 = .error e ↔
      ∃ complaint, Rule.ofLine line = .error complaint ∧ e = .badStatement complaint := by
  cases hl : Rule.ofLine line with
  | error complaint =>
    have hfail : (m.editRule row line).1 = .error (.badStatement complaint) := by
      rw [editRule_bad hl, whenEditable_idle h]
    simp [hfail, eq_comm]
  | ok rule =>
    obtain ⟨stored, hok⟩ := exists_insertRule h rule row
    simp [editRule_eq hl, hok]

theorem removeRule_error_iff (row : Nat) (e : Error) :
    (m.removeRule row).1 = .error e ↔
      m.program.size ≤ row ∧ e = .noSuchRow row m.program.size := by
  rw [removeRule, whenEditable_idle h, Program.erase?]
  by_cases hr : row < m.program.size
  · simp [hr, Nat.not_le_of_lt hr]
  · simp [hr, Nat.le_of_not_lt hr, eq_comm]

theorem perform_ne_locked (hop : op.edits) (phase : Phase) :
    (m.perform op).1 ≠ .error (.locked phase) := by
  intro hlocked
  cases op with
  | insertRule rule row =>
    obtain ⟨stored, hok⟩ := exists_insertRule h rule row
    cases hok.symm.trans (Reply.map_error_iff.1 hlocked)
  | addVacantRow =>
    obtain ⟨stored, hok⟩ := exists_addVacantRow h
    cases hok.symm.trans (Reply.map_error_iff.1 hlocked)
  | editRule row line =>
    obtain ⟨complaint, -, he⟩ := (editRule_error_iff h row line _).1 (Reply.map_error_iff.1 hlocked)
    cases he
  | removeRule row =>
    obtain ⟨-, he⟩ := (removeRule_error_iff h row _).1 (Reply.map_error_iff.1 hlocked)
    cases he
  | build | buildFrom | step | reset => cases hop

end Idle

section Perform

variable {m' : Machine} {answer : Except Error Answer} (h : Performed m op answer m')

include h

theorem Performed.edit_eq (hop : op.edits) : m' = { m with program := m'.program } := by
  cases h with
  | built hb => exact absurd hb (Operation.not_builds_of_edits hop)
  | stepped | reset => cases hop
  | failed | edited => rfl

theorem Performed.program_of_ne_idle (hm : m.phase ≠ .idle) : m'.program = m.program := by
  cases h with
  | failed | built | reset => rfl
  | stepped hs => exact hs.program
  | edited _ hidle => exact absurd hidle hm

end Perform

theorem Performed.started_of_built {m' : Machine} {answer : Answer}
    (h : Performed m op (.ok answer) m') (hop : op.builds) :
    m'.phase = .started ∧ m'.program = m.program := by
  cases h with
  | built => exact ⟨rfl, rfl⟩
  | stepped | reset => cases hop
  | edited hedit => simp [hop] at hedit

theorem program_performAll_of_ne_idle (h : m.phase ≠ .idle) {ops : List Operation}
    (hops : .reset ∉ ops) : (m.performAll ops).2.program = m.program := by
  induction ops generalizing m with
  | nil => rfl
  | cons op ops ih =>
    rw [List.mem_cons, not_or] at hops
    have hrest := ih (ne_idle_perform h (Ne.symm hops.1)) hops.2
    exact hrest.trans ((m.performed op).program_of_ne_idle h)

/-- Unless a machine is idle every edit is refused for the phase, and changes nothing. On an idle
machine none is refused for the phase; an edit with a line fails just when the line is no
statement, a removal just when there is no such row, and an edit that succeeds changes only the
program. To edit with the line of a rule is to insert the rule, so looking at the phase once more
makes no difference. Hence the program stays the same from a build that succeeds until the next
reset. -/
theorem edits_locked (m : Machine) :
    (m.phase ≠ .idle → ∀ op, op.edits → m.perform op = (.error (.locked m.phase), m)) ∧
    (m.phase = .idle →
      (∀ op, op.edits → ∀ phase, (m.perform op).1 ≠ .error (.locked phase)) ∧
      (∀ row line e, (m.editRule row line).1 = .error e ↔
        ∃ complaint, Rule.ofLine line = .error complaint ∧ e = .badStatement complaint) ∧
      (∀ row e, (m.removeRule row).1 = .error e ↔
        m.program.size ≤ row ∧ e = .noSuchRow row m.program.size) ∧
      ∀ op, op.edits → ∀ answer, (m.perform op).1 = .ok answer →
        (m.perform op).2 = { m with program := (m.perform op).2.program }) ∧
    (∀ row line rule, Rule.ofLine line = .ok rule →
      m.editRule row line = m.insertRule rule row) ∧
    ∀ op, op.builds → ∀ answer, (m.perform op).1 = .ok answer →
      ∀ ops, .reset ∉ ops → ((m.perform op).2.performAll ops).2.program = m.program := by
  refine ⟨fun h op hop ↦ perform_edit_locked hop h, fun h ↦ ⟨fun op hop ↦ perform_ne_locked h hop,
    editRule_error_iff h, removeRule_error_iff h, fun op hop _ _ ↦ (m.performed op).edit_eq hop⟩,
    fun row line rule hl ↦ editRule_eq hl m row, fun op hop answer hok ops hops ↦ ?_⟩
  obtain ⟨hstarted, hprogram⟩ := (performed_of_answer hok).started_of_built hop
  have hlocked : (m.perform op).2.phase ≠ .idle := by simp [hstarted]
  exact (program_performAll_of_ne_idle hlocked hops).trans hprogram

end OneTape.Machine
