import OneTape.Proofs.Machine.Start

namespace OneTape.Machine

def pad (m : Machine) (left right : List String) : Machine :=
  { m with tape := ⟨left ++ m.tape.cells ++ right⟩, head := left.length + m.head }

variable {m m' : Machine} {left right : List String}

theorem size_pad (m : Machine) (left right : List String) :
    (m.pad left right).tape.size = left.length + m.tape.size + right.length := by
  simp only [pad, Tape.size, List.length_append]

theorem head_pad (m : Machine) (left right : List String) :
    (m.pad left right).head = left.length + m.head := rfl

section OnTape

variable (hm : m.head < m.tape.size)

include hm

theorem onTape_pad : (m.pad left right).head < (m.pad left right).tape.size := by
  rw [size_pad, head_pad]
  omega

theorem symbol?_pad : (m.pad left right).symbol? = m.symbol? := by
  have hread : (m.pad left right).tape.read (left.length + m.head) = m.tape.read m.head := by
    simp only [pad, Tape.read, List.append_assoc]
    rw [List.getElem?_append_right (Nat.le_add_right _ _), Nat.add_sub_cancel_left]
    exact List.getElem?_append_left hm
  cases hp : m.phase with
  | started => rwa [symbol?_of_started hp, symbol?_of_started (m := m.pad left right) hp]
  | idle | halted => simp only [symbol?, pad, hp]

theorem refresh_pad : (m.pad left right).refresh = m.refresh.pad left right := by
  have h : (m.pad left right).symbol? = m.symbol? := symbol?_pad hm
  simp only [refresh, h]
  rfl

theorem carryOut_pad (rule : Rule) (head : Nat) :
    (m.pad left right).carryOut rule (left.length + head) =
      (m.carryOut rule head).pad left right := by
  have hset : (left ++ m.tape.cells ++ right).set (left.length + m.head) rule.output =
      left ++ m.tape.cells.set m.head rule.output ++ right := by
    rw [List.append_assoc, List.set_append_right _ _ (Nat.le_add_right _ _),
      Nat.add_sub_cancel_left, List.set_append_left _ _ hm, List.append_assoc]
  simp only [carryOut, pad, hset]

end OnTape

theorem target?_pad {action : Action} {head : Nat} (h : m.target? action = some head) :
    (m.pad left right).target? action = some (left.length + head) := by
  cases action <;> simp only [target?] at h
  case left =>
    split at h
    · cases h
    · cases h
      have hne : (m.pad left right).head ≠ 0 := by
        rw [head_pad]
        omega
      rw [target?, if_neg hne, head_pad, Nat.add_sub_assoc (by omega)]
  case right =>
    split at h
    · cases h
      have hlt : (m.pad left right).head + 1 < (m.pad left right).tape.size := by
        rw [size_pad, head_pad]
        omega
      rw [target?, if_pos hlt, head_pad, Nat.add_assoc]
    · cases h
  case halt =>
    cases h
    rfl

/-- The cells that are added on the side to which an action goes. -/
inductive Ahead (left right : List String) : Action → List String → Prop where
  | left : Ahead left right .left left
  | right : Ahead left right .right right

theorem target?_pad_of_none (hm : m.head < m.tape.size) {action : Action}
    (h : m.target? action = none) : ∃ ahead, Ahead left right action ahead ∧
      ((m.pad left right).target? action = none ↔ ahead = []) := by
  obtain ⟨rfl, hedge⟩ | ⟨rfl, hedge⟩ := (target?_eq_none_iff hm).1 h
  · refine ⟨left, .left, ?_⟩
    rw [target?_eq_none_iff (onTape_pad hm), head_pad, hedge]
    simp
  · refine ⟨right, .right, ?_⟩
    rw [target?_eq_none_iff (onTape_pad hm), size_pad, head_pad, ← hedge,
      ← List.length_eq_zero_iff]
    simp only [reduceCtorEq, false_and, true_and, false_or]
    omega

theorem Stepped.pad {outcome : Outcome} (h : Stepped m (.ok outcome) m')
    (hm : m.head < m.tape.size) (left right : List String) :
    (m.pad left right).step = (.ok outcome, m'.pad left right) := by
  cases h with
  | skipped ha => exact step_skipped ha
  | @moved rule _ head ha ht _ hr =>
    have hhead : (m.carryOut rule head).head < (m.carryOut rule head).tape.size := by
      rw [size_carryOut]
      exact target?_lt hm ht
    rw [step_moved (m := m.pad left right) ha (target?_pad ht) (onTape_pad hm) hr, carryOut_pad hm,
      refresh_pad hhead]
  | halted ha _ hr =>
    rw [step_halted (m := m.pad left right) ha (onTape_pad hm) hr, head_pad, carryOut_pad hm]
    rfl

theorem Stepped.blocked_of_error {e : Error} (h : Stepped m (.error e) m')
    (hm : m.head < m.tape.size) : e = .offTape m.head ∧
      ∃ rule row, m.activeRule? = some (rule, row) ∧ m.target? rule.action = none := by
  cases h with
  | blocked ha ht => exact ⟨rfl, _, _, ha, ht⟩
  | lost _ hlost => exact absurd hm hlost

/-- A step that fails on the shorter tape fails on the longer one, unless cells were added where it
goes. -/
theorem step_pad_of_error {e : Error} (hm : m.head < m.tape.size) (h : m.step.1 = .error e)
    (left right : List String) :
    ∃ rule row ahead, e = .offTape m.head ∧ m.activeRule? = some (rule, row) ∧
      Ahead left right rule.action ahead ∧
      (ahead = [] → (m.pad left right).step.1 = .error (.offTape (left.length + m.head))) ∧
      (ahead ≠ [] → (m.pad left right).step.1 = .ok .moved) := by
  obtain ⟨rfl, rule, row, ha, ht⟩ := (stepped_of_answer h).blocked_of_error hm
  obtain ⟨ahead, hside, hnone⟩ : ∃ ahead, Ahead left right rule.action ahead ∧
      ((m.pad left right).target? rule.action = none ↔ ahead = []) := target?_pad_of_none hm ht
  refine ⟨rule, row, ahead, rfl, ha, hside, fun hnil ↦ ?_, fun hcons ↦ ?_⟩
  · rw [step_blocked (m := m.pad left right) ha (hnone.2 hnil), head_pad]
  · obtain ⟨head, hsome⟩ := Option.ne_none_iff_exists'.1 (mt hnone.1 hcons)
    have hmove : rule.action ≠ .halt := fun hr ↦ by simp [hr, target?] at ht
    rw [step_moved (m := m.pad left right) ha hsome (onTape_pad hm) hmove]

theorem steps_pad (hm : m.head < m.tape.size) {n : Nat} (h : ∀ e, .error e ∉ (m.steps n).1)
    (left right : List String) :
    (m.pad left right).steps n = ((m.steps n).1, (m.steps n).2.pad left right) := by
  induction n generalizing m with
  | zero => rfl
  | succ n ih =>
    simp only [steps, List.mem_cons, not_or] at h
    have hs := m.stepped
    cases ha : m.step.1 with
    | error e => exact absurd ha.symm (h e).1
    | ok outcome =>
      rw [ha] at hs
      have hrest := ih (onTape_step hm) fun e ↦ (h e).2
      simp only [steps, hs.pad hm, hrest, ha]

theorem steps_clean_of_le {n k : Nat} (hk : k ≤ n) (h : ∀ e, .error e ∉ (m.steps n).1) (e : Error) :
    .error e ∉ (m.steps k).1 := by
  obtain ⟨d, rfl⟩ := Nat.exists_eq_add_of_le hk
  have he := h e
  rw [steps_add, List.mem_append, not_or] at he
  exact he.1

theorem started_pad (program : Program) (state : String) {cells : List String} {head : Nat}
    (h : head < cells.length) (left right : List String) :
    started program state (left ++ cells ++ right) (left.length + head) =
      (started program state cells head).pad left right :=
  refresh_pad (m := ⟨program, ⟨cells⟩, state, head, .started, none⟩) h

/-- As long as the run on some cells does not fail, the run with more cells around them gives the
same answers and goes through the same machines but for these cells. Where the first run fails, the
other fails at the same cell if none were added on that side, and moves on if some were. -/
theorem steps_pad_build (program : Program) (state : String) {cells left right : List String}
    {head : Nat} (h : head < cells.length)
    (hc : ∀ cell ∈ left ++ cells ++ right, ',' ∉ cell.toList) :
    ∃ m m', (new program).build (Tape.text ⟨cells⟩) state (head + 1) = (.ok (), m) ∧
      (new program).build (Tape.text ⟨left ++ cells ++ right⟩) state (left.length + head + 1) =
        (.ok (), m') ∧
      ∀ n, (∀ e, .error e ∉ (m.steps n).1) →
        (m'.steps n).1 = (m.steps n).1 ∧
        (∀ k ≤ n, (m'.steps k).2 = (m.steps k).2.pad left right) ∧
        ∀ e, (m.steps n).2.step.1 = .error e →
          ∃ q rule row ahead, e = .offTape q ∧ (m.steps n).2.activeRule? = some (rule, row) ∧
            Ahead left right rule.action ahead ∧
            (ahead = [] → (m'.steps n).2.step.1 = .error (.offTape (left.length + q))) ∧
            (ahead ≠ [] → (m'.steps n).2.step.1 = .ok .moved) := by
  have hcells : ∀ cell ∈ cells, ',' ∉ cell.toList := fun cell hcell ↦
    hc cell (List.mem_append_left _ (List.mem_append_right _ hcell))
  have hlong : left.length + head < (left ++ cells ++ right).length := by
    simp only [List.length_append]
    omega
  refine ⟨_, _, build_started program state h hcells, build_started program state hlong hc,
    fun n hn ↦ ?_⟩
  rw [started_pad program state h]
  generalize hm : started program state cells head = m at hn ⊢
  have honTape : m.head < m.tape.size := hm ▸ onTape_started h
  have hrun := steps_pad honTape hn left right
  refine ⟨by rw [hrun], fun k hk ↦ ?_, fun e he ↦ ?_⟩
  · rw [steps_pad honTape (steps_clean_of_le hk hn)]
  · obtain ⟨rule, row, ahead, hq, hrest⟩ := step_pad_of_error (onTape_steps honTape n) he left right
    rw [hrun]
    exact ⟨_, rule, row, ahead, hq, hrest⟩

/-- The second of two steps to the right fails, with one more cell on the left as well, but not with
one more on the right. -/
theorem steps_pad_build_two :
    let program : Program := .ofRules [⟨"A", "0", "A", "1", .right⟩]
    let m : Machine := ⟨program, ⟨["0", "0"]⟩, "A", 0, .started, some 0⟩
    (new program).build "0,0" "A" 1 = (.ok (), m) ∧
    m.steps 2 = ([.ok .moved, .error (.offTape 1)],
      ⟨program, ⟨["1", "0"]⟩, "A", 1, .started, some 0⟩) ∧
    0 < ["0", "0"].length ∧
    (∀ cell ∈ ["x"] ++ ["0", "0"] ++ [], ',' ∉ cell.toList) ∧
    (∀ cell ∈ [] ++ ["0", "0"] ++ [""], ',' ∉ cell.toList) ∧
    (∃ m', (new program).build "x,0,0" "A" 2 = (.ok (), m') ∧
      (m'.steps 1).1 = [.ok .moved] ∧ (m'.steps 1).2 = (m.steps 1).2.pad ["x"] [] ∧
      (m'.steps 1).2.step.1 = .error (.offTape 2)) ∧
    ∃ m', (new program).build "0,0," "A" 1 = (.ok (), m') ∧
      (m'.steps 1).1 = [.ok .moved] ∧ (m'.steps 1).2 = (m.steps 1).2.pad [] [""] ∧
      (m'.steps 1).2.step.1 = .ok .moved := by
  intro program m
  have h : 0 < ["0", "0"].length := by decide
  have hleft : ∀ cell ∈ ["x"] ++ ["0", "0"] ++ [], ',' ∉ cell.toList := by decide
  have hright : ∀ cell ∈ [] ++ ["0", "0"] ++ [""], ',' ∉ cell.toList := by decide
  have hm : (new program).build "0,0" "A" 1 = (.ok (), m) := rfl
  have hclean : ∀ e, .error e ∉ (m.steps 1).1 := by
    have hone : (m.steps 1).1 = [.ok .moved] := rfl
    simp [hone]
  refine ⟨hm, rfl, h, hleft, hright, ?_, ?_⟩
  · obtain ⟨m₀, m', hm₀, hm', hrun⟩ := steps_pad_build program "A" h hleft
    obtain rfl : m = m₀ := congrArg Prod.snd (hm.symm.trans hm₀)
    obtain ⟨hanswers, hmachines, hfail⟩ := hrun 1 hclean
    obtain ⟨q, rule, row, ahead, hq, hactive, hside, hnil, -⟩ := hfail (.offTape 1) rfl
    cases hq
    cases hactive
    cases hside
    exact ⟨m', hm', hanswers, hmachines 1 (Nat.le_refl 1), hnil rfl⟩
  · obtain ⟨m₀, m', hm₀, hm', hrun⟩ := steps_pad_build program "A" h hright
    obtain rfl : m = m₀ := congrArg Prod.snd (hm.symm.trans hm₀)
    obtain ⟨hanswers, hmachines, hfail⟩ := hrun 1 hclean
    obtain ⟨q, rule, row, ahead, -, hactive, hside, -, hcons⟩ := hfail (.offTape 1) rfl
    cases hactive
    cases hside
    exact ⟨m', hm', hanswers, hmachines 1 (Nat.le_refl 1), hcons (by simp)⟩

end OneTape.Machine
