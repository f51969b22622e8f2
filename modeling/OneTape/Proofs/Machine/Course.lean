import OneTape.Machine.Run
import OneTape.Proofs.Machine.Shape

namespace OneTape.Machine

/-- How a run of at most `limit` steps goes: after how many of them it is where it ends, and why it
ends there. -/
inductive Course (m : Machine) (limit : Nat) : (last : Nat) → Ending → Prop where
  | limit (h : ∀ i < limit, (m.steps i).2.step.1 = .ok .moved) : Course m limit limit .limit
  | halted {n : Nat} (hn : n < limit) (h : ∀ i < n, (m.steps i).2.step.1 = .ok .moved)
      (hs : (m.steps n).2.step.1 = .ok .halted) : Course m limit (n + 1) .halted
  | skipped {n : Nat} (hn : n < limit) (h : ∀ i < n, (m.steps i).2.step.1 = .ok .moved)
      (hs : (m.steps n).2.step.1 = .ok .skipped) : Course m limit n .skipped
  | failed {n position : Nat} (hn : n < limit) (h : ∀ i < n, (m.steps i).2.step.1 = .ok .moved)
      (hs : (m.steps n).2.step.1 = .error (.offTape position)) :
      Course m limit n (.failed (.offTape position))

variable {m m' : Machine} {limit last n : Nat} {ending : Ending}

theorem exists_course (m : Machine) (limit : Nat) : ∃ last ending, m.Course limit last ending := by
  induction limit with
  | zero => exact ⟨0, .limit, .limit fun i hi ↦ absurd hi (Nat.not_lt_zero i)⟩
  | succ limit ih =>
    obtain ⟨last, ending, h⟩ := ih
    cases h with
    | limit h =>
      -- Only a run that was stopped by the limit can go on.
      cases hs : (m.steps limit).2.step.1 with
      | ok outcome =>
        cases outcome with
        | moved => exact ⟨_, _, .limit (Nat.forall_lt_succ_right.2 ⟨h, hs⟩)⟩
        | halted => exact ⟨_, _, .halted (Nat.lt_succ_self _) h hs⟩
        | skipped => exact ⟨_, _, .skipped (Nat.lt_succ_self _) h hs⟩
      | error e =>
        obtain rfl := error_of_step hs
        exact ⟨_, _, .failed (Nat.lt_succ_self _) h hs⟩
    | halted hn h hs => exact ⟨_, _, .halted (Nat.lt_succ_of_lt hn) h hs⟩
    | skipped hn h hs => exact ⟨_, _, .skipped (Nat.lt_succ_of_lt hn) h hs⟩
    | failed hn h hs => exact ⟨_, _, .failed (Nat.lt_succ_of_lt hn) h hs⟩

namespace Course

theorem le_limit (h : m.Course limit last ending) : last ≤ limit := by
  cases h with
  | limit => exact Nat.le_refl _
  | halted hn => exact hn
  | skipped hn | failed hn => exact Nat.le_of_lt hn

theorem moved_of_succ_lt (h : m.Course limit last ending) {i : Nat} (hi : i + 1 < last) :
    (m.steps i).2.step.1 = .ok .moved := by
  cases h with
  | limit h | halted _ h | skipped _ h | failed _ h => exact h i (by omega)

theorem carried_of_lt (h : m.Course limit last ending) {i : Nat} (hi : i < last) :
    (m.steps i).2.step.1 = .ok .moved ∨ (m.steps i).2.step.1 = .ok .halted := by
  cases h with
  | limit h | skipped _ h | failed _ h => exact .inl (h i hi)
  | halted _ h hs =>
    obtain hlt | rfl := Nat.lt_succ_iff_lt_or_eq.1 hi
    · exact .inl (h i hlt)
    · exact .inr hs

theorem mono {limit' last' : Nat} {ending' : Ending} (h : m.Course limit last ending)
    (h' : m.Course limit' last' ending') (hle : limit ≤ limit') : last ≤ last' := by
  refine Nat.le_of_not_lt fun hlt ↦ ?_
  cases h' with
  | limit => exact absurd (Nat.le_trans h.le_limit hle) (Nat.not_le_of_lt hlt)
  | halted _ _ hs => simp [h.moved_of_succ_lt hlt] at hs
  | skipped _ _ hs | failed _ _ hs =>
    obtain hcarried | hcarried := h.carried_of_lt hlt <;> simp [hcarried] at hs

end Course

def passed (m : Machine) (n : Nat) : List Machine :=
  (List.range n).map fun i ↦ (m.steps (i + 1)).2

theorem passed_cons (m : Machine) (n : Nat) :
    m.passed (n + 1) = m.step.2 :: m.step.2.passed n := by
  simp only [passed, List.range_succ_eq_map, List.map_cons, List.map_map]
  rfl

theorem passed_succ (m : Machine) (n : Nat) :
    m.passed (n + 1) = m.passed n ++ [(m.steps n).2.step.2] := by
  simp only [passed, List.range_succ, List.map_append, List.map_singleton, steps_succ]

theorem moves_of_forall (h : ∀ i < n, (m.steps i).2.step.1 = .ok .moved) :
    Moves n m (m.steps n).2 := by
  induction n generalizing m with
  | zero => exact .zero m
  | succ n ih =>
    have hfirst : m.step = (.ok .moved, m.step.2) := Prod.ext (h 0 (Nat.succ_pos n)) rfl
    exact .cons hfirst (ih fun i hi ↦ h (i + 1) (Nat.succ_lt_succ hi))

variable {β : Type} {visit : β → Machine → β}

theorem follow_moves (h : Moves n m m') (k : Nat) (b : β) :
    follow visit (n + k) b m = follow visit k ((m.passed n).foldl visit b) m' := by
  induction h generalizing b with
  | zero => rw [Nat.zero_add]; rfl
  | @cons n a _ c hs _ ih =>
    rw [Nat.add_right_comm, follow, hs, passed_cons, hs, List.foldl_cons]
    exact ih _

/-- What is gathered comes from the machines that the run leads through, up to the one where its
course ends. -/
theorem follow_course (h : m.Course limit last ending) (b : β) :
    follow visit limit b m = ((m.passed last).foldl visit b, ending, (m.steps last).2) := by
  cases h with
  | limit h => simpa only [follow, Nat.add_zero] using follow_moves (moves_of_forall h) 0 b
  | @halted n hn h hs =>
    obtain ⟨k, rfl⟩ := Nat.exists_eq_add_of_lt hn
    have hstep : (m.steps n).2.step = (.ok .halted, (m.steps n).2.step.2) := Prod.ext hs rfl
    rw [Nat.add_assoc, follow_moves (moves_of_forall h), follow, hstep, passed_succ, steps_succ,
      List.foldl_append]
    rfl
  | skipped hn h hs =>
    obtain ⟨k, rfl⟩ := Nat.exists_eq_add_of_lt hn
    rw [Nat.add_assoc, follow_moves (moves_of_forall h), follow, step_of_skipped hs]
  | failed hn h hs =>
    obtain ⟨k, rfl⟩ := Nat.exists_eq_add_of_lt hn
    rw [Nat.add_assoc, follow_moves (moves_of_forall h), follow, step_of_error hs]

end OneTape.Machine
