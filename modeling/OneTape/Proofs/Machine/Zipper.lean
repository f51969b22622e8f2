import OneTape.Proofs.Machine.Start

namespace OneTape.Machine

/-- A machine that runs, with its head on the first of the cells on the right. The cells on the left
come from the nearest on. -/
def facingRight (program : Program) (state : String) (left right : List String) : Machine :=
  refresh ⟨program, ⟨left.reverse ++ right⟩, state, left.length, .started, none⟩

def facingLeft (program : Program) (state : String) (left right : List String) : Machine :=
  refresh ⟨program, ⟨left.reverse ++ right⟩, state, left.length - 1, .started, none⟩

variable {program : Program} {state : String} {left right : List String}

theorem facingLeft_cons (program : Program) (state cell : String) (left right : List String) :
    facingLeft program state (cell :: left) right =
      facingRight program state left (cell :: right) := by
  simp [facingLeft, facingRight]

theorem size_facingRight :
    (facingRight program state left right).tape.size = left.length + right.length := by
  simp [facingRight, Tape.size]

theorem head_facingRight : (facingRight program state left right).head = left.length := rfl

theorem coherent_facingRight (cell : String) :
    (facingRight program state left (cell :: right)).Coherent :=
  coherent_started (by simp)

theorem activeRule?_facingRight (cell : String) :
    (facingRight program state left (cell :: right)).activeRule? = program.lookup state cell := by
  have hread : (facingRight program state left (cell :: right)).symbol? = some cell := by
    simp [facingRight, symbol?, refresh, Tape.read]
  rw [(coherent_facingRight cell).activeRule?_eq, hread]
  rfl

theorem build_facingRight (program : Program) (state : String) {left right : List String}
    (hright : right ≠ []) (hc : ∀ cell ∈ left.reverse ++ right, ',' ∉ cell.toList) :
    (new program).build (Tape.text ⟨left.reverse ++ right⟩) state (left.length + 1) =
      (.ok (), facingRight program state left right) := by
  have hlength : left.length < (left.reverse ++ right).length := by
    have hpos := List.length_pos_iff.2 hright
    simp only [List.length_append, List.length_reverse]
    omega
  exact build_started program state hlength hc

section Rule

variable {rule : Rule} {row : Nat} {cell : String}
  (h : program.lookup state cell = some (rule, row))

include h

theorem step_right (ha : rule.action = .right) (left : List String) (hright : right ≠ []) :
    (facingRight program state left (cell :: right)).step =
      (.ok .moved, facingRight program rule.next (rule.output :: left) right) := by
  have hm : (facingRight program state left (cell :: right)).Coherent := coherent_facingRight cell
  have ht : (facingRight program state left (cell :: right)).target? rule.action =
      some (left.length + 1) := by
    have hpos := List.length_pos_iff.2 hright
    simp [target?, ha, size_facingRight, head_facingRight, hpos]
  rw [step_moved ((activeRule?_facingRight cell).trans h) ht (hm.head_lt rfl) (by simp [ha])]
  refine congrArg (Prod.mk _) (refresh_congr rfl ?_ rfl ?_ rfl) <;> simp [facingRight, carryOut]

theorem step_left (ha : rule.action = .left) (hleft : left ≠ []) (right : List String) :
    (facingRight program state left (cell :: right)).step =
      (.ok .moved, facingLeft program rule.next left (rule.output :: right)) := by
  have hm : (facingRight program state left (cell :: right)).Coherent := coherent_facingRight cell
  have ht : (facingRight program state left (cell :: right)).target? rule.action =
      some (left.length - 1) := by
    simp [target?, ha, head_facingRight, hleft]
  rw [step_moved ((activeRule?_facingRight cell).trans h) ht (hm.head_lt rfl) (by simp [ha])]
  refine congrArg (Prod.mk _) (refresh_congr rfl ?_ rfl ?_ rfl) <;> simp [facingRight, carryOut]

theorem step_halt (ha : rule.action = .halt) (left right : List String) :
    (facingRight program state left (cell :: right)).step =
      (.ok .halted, ⟨program, ⟨left.reverse ++ rule.output :: right⟩, rule.next, left.length,
        .halted, none⟩) := by
  have hm : (facingRight program state left (cell :: right)).Coherent := coherent_facingRight cell
  rw [step_halted ((activeRule?_facingRight cell).trans h) (hm.head_lt rfl) ha]
  simp [facingRight, carryOut, refresh]

theorem steps_halt (ha : rule.action = .halt) (left right : List String) (n : Nat) :
    (facingRight program state left (cell :: right)).steps (n + 1) =
      (.ok .halted :: List.replicate n (.ok .skipped),
        ⟨program, ⟨left.reverse ++ rule.output :: right⟩, rule.next, left.length, .halted,
          none⟩) := by
  rw [steps, step_halt h ha left right, steps_of_fixed (step_skipped rfl)]

theorem step_leftmost (ha : rule.action = .left) (right : List String) :
    (facingRight program state [] (cell :: right)).step =
      (.error (.offTape 0), facingRight program state [] (cell :: right)) :=
  step_blocked ((activeRule?_facingRight cell).trans h)
    (by simp [target?, ha, head_facingRight])

theorem step_rightmost (ha : rule.action = .right) (left : List String) :
    (facingRight program state left [cell]).step =
      (.error (.offTape left.length), facingRight program state left [cell]) :=
  step_blocked ((activeRule?_facingRight cell).trans h)
    (by simp [target?, ha, head_facingRight, size_facingRight])

end Rule

theorem step_unmatched {cell : String} (h : program.lookup state cell = none)
    (left right : List String) :
    (facingRight program state left (cell :: right)).step =
      (.ok .skipped, facingRight program state left (cell :: right)) :=
  step_skipped ((activeRule?_facingRight cell).trans h)

/-- On this cell the rule that decides keeps the state, writes what `f` gives and goes on. -/
def Sweeps (program : Program) (state : String) (action : Action) (f : String → String)
    (cell : String) : Prop :=
  ∃ row, program.lookup state cell = some (⟨state, cell, state, f cell, action⟩, row)

variable {f : String → String} {word : List String}

theorem sweep_right (h : ∀ cell ∈ word, Sweeps program state .right f cell)
    (left : List String) (hright : right ≠ []) :
    Moves word.length (facingRight program state left (word ++ right))
      (facingRight program state ((word.map f).reverse ++ left) right) := by
  induction word generalizing left with
  | nil => exact .zero _
  | cons cell word ih =>
    obtain ⟨row, hl⟩ := h cell List.mem_cons_self
    have hstep := step_right hl rfl left (show word ++ right ≠ [] by simp [hright])
    have hrest := ih (fun c hc ↦ h c (List.mem_cons_of_mem _ hc)) (f cell :: left)
    simpa using Moves.cons hstep hrest

theorem sweep_left (h : ∀ cell ∈ word, Sweeps program state .left f cell)
    (hleft : left ≠ []) (right : List String) :
    Moves word.length (facingLeft program state (word ++ left) right)
      (facingLeft program state left ((word.map f).reverse ++ right)) := by
  induction word generalizing right with
  | nil => exact .zero _
  | cons cell word ih =>
    obtain ⟨row, hl⟩ := h cell List.mem_cons_self
    have hstep := step_left hl rfl (show word ++ left ≠ [] by simp [hleft]) right
    have hrest := ih (fun c hc ↦ h c (List.mem_cons_of_mem _ hc)) (f cell :: right)
    rw [List.cons_append, facingLeft_cons]
    simpa using Moves.cons hstep hrest

/-- A turn to the left that is followed by a sweep over all that is there ends at the edge. -/
theorem sweep_off {rule : Rule} {row : Nat} {cell : String}
    (hturn : program.lookup state cell = some (rule, row)) (ha : rule.action = .left)
    (h : ∀ cell ∈ left, Sweeps program rule.next .left f cell) (right : List String) :
    ∃ n m, Moves n (facingRight program state left (cell :: right)) m ∧
      m.step = (.error (.offTape 0), m) := by
  obtain rfl | ⟨word, last, rfl⟩ := List.eq_nil_or_concat left
  · exact ⟨0, _, .zero _, step_leftmost hturn ha right⟩
  · rw [List.concat_eq_append] at h ⊢
    have hstep := step_left hturn ha (show word ++ [last] ≠ [] by simp) right
    have hword : ∀ cell ∈ word, Sweeps program rule.next .left f cell :=
      fun c hc ↦ h c (List.mem_append_left _ hc)
    have hsweep := sweep_left hword (show [last] ≠ [] by simp) (rule.output :: right)
    obtain ⟨row', hl⟩ := h last (by simp)
    refine ⟨_, _, .cons hstep hsweep, ?_⟩
    rw [facingLeft_cons]
    exact step_leftmost hl rfl _

end OneTape.Machine
