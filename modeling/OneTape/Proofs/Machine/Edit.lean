import OneTape.Proofs.Machine.Steps

namespace OneTape

namespace Program

variable {p q : Program} {slot slot' : Slot}

theorem mem_rules {rule : Rule} : rule ∈ p.rules ↔ .filled rule ∈ p.slots := by
  rw [rules, List.mem_filterMap]
  constructor
  · rintro ⟨slot, hs, hr⟩
    cases slot with
    | vacant => cases hr
    | filled r => cases hr; exact hs
  · exact fun h ↦ ⟨.filled rule, h, rfl⟩

theorem mem_put (p : Program) {row : Option Nat} (h : slot' ∈ (p.put slot row).2.slots) :
    slot' ∈ p.slots ∨ slot' = slot := by
  have happend : slot' ∈ p.slots ++ [slot] → slot' ∈ p.slots ∨ slot' = slot := by simp
  cases row with
  | none => exact happend h
  | some row =>
    unfold put at h
    by_cases hr : row < p.size
    · simp only [if_pos hr] at h
      exact List.mem_or_eq_of_mem_set h
    · simp only [if_neg hr] at h
      exact happend h

theorem mem_of_erase? {row : Nat} (hq : p.erase? row = some q) (h : slot ∈ q.slots) :
    slot ∈ p.slots := by
  unfold erase? at hq
  split at hq
  · cases hq
    exact List.mem_of_mem_eraseIdx h
  · cases hq

end Program

namespace Machine

inductive Operation.Puts : Operation → Slot → Prop where
  | insertRule (rule : Rule) (row : Option Nat) : Puts (.insertRule rule row) (.filled rule)
  | addVacantRow : Puts .addVacantRow .vacant
  | editRule {line : String} {rule : Rule} (h : Rule.ofLine line = .ok rule) (row : Option Nat) :
      Puts (.editRule row line) (.filled rule)

variable {m : Machine} {slot : Slot}

theorem program_build (m : Machine) (tape state : String) (head : Nat) :
    (m.build tape state head).2.program = m.program := by
  by_cases h : head = 0 ∨ (Tape.ofText tape).size < head
  · rw [build_outside m state h]
  · rw [build_inside m state h]
    rfl

theorem mem_slots_whenEditable {α : Type} {edit : Reply α}
    (h : slot ∈ (m.whenEditable edit).2.program.slots) :
    slot ∈ m.program.slots ∨ slot ∈ edit.2.program.slots := by
  by_cases hp : m.phase = .idle
  · rw [whenEditable_idle hp] at h
    exact .inr h
  · rw [whenEditable_locked hp] at h
    exact .inl h

theorem mem_slots_putSlot {op : Operation} {put : Slot} {row : Option Nat} (hop : op.Puts put)
    (h : slot ∈ (m.whenEditable (m.putSlot put row)).2.program.slots) :
    slot ∈ m.program.slots ∨ op.Puts slot := by
  obtain h | h := mem_slots_whenEditable h
  · exact .inl h
  · obtain h | rfl := m.program.mem_put h
    · exact .inl h
    · exact .inr hop

theorem mem_slots_perform {op : Operation} (h : slot ∈ (m.perform op).2.program.slots) :
    slot ∈ m.program.slots ∨ op.Puts slot := by
  cases op with
  | build tape state head =>
    exact .inl (m.program_build tape state head ▸ h)
  | buildFrom config =>
    exact .inl (m.program_build config.tape config.state config.head ▸ h)
  | step => exact .inl (m.stepped.program ▸ h)
  | reset => exact .inl h
  | insertRule rule row => exact mem_slots_putSlot (.insertRule rule row) h
  | addVacantRow => exact mem_slots_putSlot .addVacantRow h
  | editRule row line =>
    change slot ∈ (m.editRule row line).2.program.slots at h
    cases hl : Rule.ofLine line with
    | error complaint =>
      rw [editRule_bad hl] at h
      exact .inl ((mem_slots_whenEditable h).elim id id)
    | ok rule =>
      rw [editRule_eq hl] at h
      exact mem_slots_putSlot (.editRule hl row) h
  | removeRule row =>
    change slot ∈ (m.removeRule row).2.program.slots at h
    cases he : m.program.erase? row with
    | none =>
      simp only [removeRule, he] at h
      exact .inl ((mem_slots_whenEditable h).elim id id)
    | some program =>
      simp only [removeRule, he] at h
      exact .inl ((mem_slots_whenEditable h).elim id (Program.mem_of_erase? he))

theorem mem_slots_performAll {ops : List Operation}
    (h : slot ∈ (m.performAll ops).2.program.slots) :
    slot ∈ m.program.slots ∨ ∃ op ∈ ops, op.Puts slot := by
  induction ops generalizing m with
  | nil => exact .inl h
  | cons op ops ih =>
    obtain h | ⟨op', hmem, hput⟩ := ih h
    · exact (mem_slots_perform h).imp_right fun hput ↦ ⟨op, List.mem_cons_self, hput⟩
    · exact .inr ⟨op', List.mem_cons_of_mem op hmem, hput⟩

end Machine

end OneTape
