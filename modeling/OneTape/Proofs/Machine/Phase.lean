import OneTape.Proofs.Machine.Coherence

namespace OneTape.Machine

inductive Shift (m : Machine) : Operation → Except Error Answer → Phase → Prop where
  | stay (op : Operation) (answer : Except Error Answer) : Shift m op answer m.phase
  | start {op : Operation} (hop : op.builds) : Shift m op (.ok .done) .started
  | halt {rule : Rule} {row : Nat} (h : m.activeRule? = some (rule, row))
      (ha : rule.action = .halt) : Shift m .step (.ok (.stepped .halted)) .halted
  | release : Shift m .reset (.ok .done) .idle

variable {m m' : Machine} {op : Operation} {answer : Except Error Answer}

theorem Performed.shift (h : Performed m op answer m') : Shift m op answer m'.phase := by
  cases h with
  | failed => exact .stay _ _
  | built hop => exact .start hop
  | stepped hs =>
    cases hs with
    | skipped | moved => exact .stay _ _
    | halted ha _ hr => exact .halt ha hr
  | reset => exact .release
  | edited => exact .stay _ _

theorem shift_perform (m : Machine) (op : Operation) :
    Shift m op (m.perform op).1 (m.perform op).2.phase :=
  (m.performed op).shift

theorem halts_of_perform (h : m.phase ≠ .halted) (h' : (m.perform op).2.phase = .halted) :
    op = .step ∧ (m.perform op).1 = .ok (.stepped .halted) ∧
      ∃ rule row, m.activeRule? = some (rule, row) ∧ rule.action = .halt := by
  have hs := m.shift_perform op
  rw [h'] at hs
  generalize (m.perform op).1 = answer at hs ⊢
  generalize hp : Phase.halted = phase at hs
  cases hs with
  | stay => exact absurd hp.symm h
  | start | release => cases hp
  | halt ha hr => exact ⟨rfl, rfl, _, _, ha, hr⟩

theorem released_of_perform (h : m.phase = .halted) (h' : (m.perform op).2.phase ≠ .halted) :
    op = .reset ∨ op.builds ∧ (m.perform op).1 = .ok .done := by
  have hs := m.shift_perform op
  generalize (m.perform op).1 = answer, (m.perform op).2.phase = phase at hs h' ⊢
  cases hs with
  | stay => exact absurd h h'
  | start hop => exact .inr ⟨hop, rfl⟩
  | halt => exact absurd rfl h'
  | release => exact .inl rfl

theorem halted_performAll (h : m.phase = .halted) (ops : List Operation) :
    (m.performAll ops).2.phase = .halted ∨ .reset ∈ ops ∨ Built ops (m.performAll ops).1 := by
  induction ops generalizing m with
  | nil => exact .inl h
  | cons op ops ih =>
    rw [performAll_cons, built_cons, List.mem_cons]
    by_cases hp : (m.perform op).2.phase = .halted
    · obtain hhalted | hreset | hbuilt := ih hp
      · exact .inl hhalted
      · exact .inr (.inl (.inr hreset))
      · exact .inr (.inr (.inr hbuilt))
    · obtain rfl | ⟨hop, hok⟩ := released_of_perform h hp
      · exact .inr (.inl (.inl rfl))
      · exact .inr (.inr (.inl ⟨hop, _, hok⟩))

theorem ne_idle_perform (h : m.phase ≠ .idle) (hop : op ≠ .reset) :
    (m.perform op).2.phase ≠ .idle := by
  have hs := m.shift_perform op
  generalize (m.perform op).1 = answer, (m.perform op).2.phase = phase at hs ⊢
  cases hs with
  | stay => exact h
  | start | halt => simp
  | release => exact absurd rfl hop

end OneTape.Machine
