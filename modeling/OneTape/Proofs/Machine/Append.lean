import OneTape.Proofs.Program.Text

namespace OneTape

open Text

namespace Machine

variable {m : Machine} {ops : List Operation} {slots : List Slot} {slot : Slot}

def Operation.Appends (op : Operation) (slot : Slot) : Prop :=
  ∀ m : Machine, m.phase = .idle →
    m.perform op = (.ok (.row m.program.size), { m with program := ⟨m.program.slots ++ [slot]⟩ })

theorem appends_addVacantRow : Operation.addVacantRow.Appends .vacant := by
  intro m hm
  rw [perform, addVacantRow, whenEditable_idle hm]
  rfl

theorem appends_editRule {line : String} {rule : Rule} (h : Rule.ofLine line = .ok rule) :
    (Operation.editRule none line).Appends (.filled rule) := by
  intro m hm
  rw [perform, editRule_eq h, insertRule, whenEditable_idle hm]
  rfl

theorem perform_bad {line : String} {complaint : Statement.Complaint} (hm : m.phase = .idle)
    (h : Rule.ofLine line = .error complaint) :
    (m.perform (.editRule none line)).1 = .error (.badStatement complaint) := by
  rw [perform, editRule_bad h, whenEditable_idle hm]
  rfl

def Operation.ofLine (line : List Char) : Operation :=
  if line.all isBlank then .addVacantRow else .editRule none (String.ofList line)

theorem appends_ofLine {line : List Char} (h : Slot.ofLine line = .ok slot) :
    (Operation.ofLine line).Appends slot := by
  by_cases hgap : IsGap line
  · rw [Slot.ofLine_of_isGap hgap] at h
    cases h
    rw [Operation.ofLine, if_pos (all_isBlank_iff.2 hgap)]
    exact appends_addVacantRow
  · rw [Slot.ofLine_of_not_isGap hgap] at h
    rw [Operation.ofLine, if_neg (mt all_isBlank_iff.1 hgap)]
    cases hrule : Rule.ofLine (String.ofList line) with
    | error complaint =>
      rw [hrule] at h
      cases h
    | ok rule =>
      rw [hrule] at h
      cases h
      exact appends_editRule hrule

theorem performAll_append (m : Machine) (ops ops' : List Operation) :
    m.performAll (ops ++ ops') =
      ((m.performAll ops).1 ++ ((m.performAll ops).2.performAll ops').1,
        ((m.performAll ops).2.performAll ops').2) := by
  induction ops generalizing m with
  | nil => rfl
  | cons op ops ih => simp only [List.cons_append, performAll_cons, ih]

theorem performAll_stopped {answers : List (Except Error Answer)} {m' : Machine} {op : Operation}
    {e : Error} (h : m.performAll ops = (answers, m')) (hop : (m'.perform op).1 = .error e)
    (ops' : List Operation) :
    ∃ later, (m.performAll (ops ++ op :: ops')).1 = answers ++ .error e :: later := by
  rw [performAll_append, h, performAll_cons, hop]
  exact ⟨_, rfl⟩

theorem performAll_appends (h : List.Forall₂ Operation.Appends ops slots) (hm : m.phase = .idle) :
    m.performAll ops =
      ((List.range' m.program.size slots.length).map fun row ↦ .ok (.row row),
        { m with program := ⟨m.program.slots ++ slots⟩ }) := by
  induction h generalizing m with
  | nil =>
    rw [List.append_nil]
    rfl
  | @cons op slot ops slots hop _ ih =>
    have hrest := ih (m := { m with program := ⟨m.program.slots ++ [slot]⟩ }) hm
    rw [performAll_cons, hop m hm]
    simp only [hrest, Program.size, List.length_append, List.length_cons, List.length_nil,
      List.range'_succ, List.map_cons, List.append_assoc, List.cons_append, List.nil_append]

theorem performAll_appends_empty (h : List.Forall₂ Operation.Appends ops slots)
    (hm : m.phase = .idle) (hp : m.program = .empty) :
    m.performAll ops =
      ((List.range slots.length).map fun row ↦ .ok (.row row), { m with program := ⟨slots⟩ }) := by
  rw [performAll_appends h hm, hp, List.range_eq_range']
  rfl

end Machine

end OneTape
