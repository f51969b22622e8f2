import OneTape.Proofs.Machine.Failure

namespace OneTape.Machine

def Leaves (m : Machine) (action : Action) : Prop :=
  action = .left ∧ m.head = 0 ∨ action = .right ∧ m.head + 1 = m.tape.size

/-- A step with this answer did what the rule says, and nothing else. -/
structure Executed (m : Machine) (rule : Rule) (answer : Except Error Outcome)
    (m' : Machine) : Prop where
  program : m'.program = m.program
  state : m'.state = rule.next
  written : m'.tape.read m.head = some rule.output
  unwritten : ∀ i, i ≠ m.head → m'.tape.read i = m.tape.read i
  size : m'.tape.size = m.tape.size
  action : match rule.action with
    | .left => answer = .ok .moved ∧ m'.phase = .started ∧ m'.head + 1 = m.head
    | .right => answer = .ok .moved ∧ m'.phase = .started ∧ m'.head = m.head + 1
    | .halt => answer = .ok .halted ∧ m'.phase = .halted ∧ m'.head = m.head

variable {m m' : Machine} {rule : Rule} {row : Nat} {answer : Except Error Outcome}

theorem read_carryOut (h : m.head < m.tape.size) (rule : Rule) (head : Nat) :
    (m.carryOut rule head).tape.read m.head = some rule.output :=
  List.getElem?_set_self h

theorem target?_left {head : Nat} (h : m.target? .left = some head) : head + 1 = m.head := by
  simp only [target?] at h
  split at h <;> cases h
  omega

theorem target?_right {head : Nat} (h : m.target? .right = some head) : head = m.head + 1 := by
  simp only [target?] at h
  split at h <;> cases h
  rfl

theorem executed_moved {head : Nat} (h : m.head < m.tape.size) (hp : m.phase = .started)
    (ht : m.target? rule.action = some head) (ha : rule.action ≠ .halt) :
    Executed m rule (.ok .moved) (m.carryOut rule head).refresh where
  program := rfl
  state := rfl
  written := read_carryOut h rule head
  unwritten _ hi := List.getElem?_set_ne hi.symm
  size := m.size_carryOut rule head
  action := by
    cases hr : rule.action with
    | left =>
      rw [hr] at ht
      exact ⟨rfl, hp, target?_left ht⟩
    | right =>
      rw [hr] at ht
      exact ⟨rfl, hp, target?_right ht⟩
    | halt => exact absurd hr ha

theorem executed_halted (h : m.head < m.tape.size) (ha : rule.action = .halt) :
    Executed m rule (.ok .halted)
      { m.carryOut rule m.head with phase := .halted, active := none } where
  program := rfl
  state := rfl
  written := read_carryOut h rule m.head
  unwritten _ hi := List.getElem?_set_ne hi.symm
  size := m.size_carryOut rule m.head
  action := by
    rw [ha]
    exact ⟨rfl, rfl, rfl⟩

namespace Coherent

variable (hm : m.Coherent)

include hm

theorem step_of_leaves (ha : m.activeRule? = some (rule, row)) (hl : m.Leaves rule.action) :
    m.step = (.error (.offTape m.head), m) :=
  step_blocked ha ((target?_eq_none_iff (hm.head_lt (hm.started_of_activeRule? ha))).2 hl)

theorem executed_step (ha : m.activeRule? = some (rule, row)) (hl : ¬ m.Leaves rule.action) :
    Executed m rule m.step.1 m.step.2 := by
  have hp := hm.started_of_activeRule? ha
  have hlt := hm.head_lt hp
  cases ht : m.target? rule.action with
  | none => exact absurd ((target?_eq_none_iff hlt).1 ht) hl
  | some head =>
    by_cases hr : rule.action = .halt
    · rw [step_halted ha hlt hr]
      exact executed_halted hlt hr
    · rw [step_moved ha ht hlt hr]
      exact executed_moved hlt hp ht hr

theorem explain_of_started (hp : m.phase = .started) :
    ∃ symbol, m.tape.read m.head = some symbol ∧
      m.explain = .running m.state (some symbol) m.activeRule? := by
  obtain ⟨symbol, hs⟩ := exists_read (hm.head_lt hp)
  refine ⟨symbol, hs, ?_⟩
  simp only [explain, hp, symbol?_of_started hp, hs]

end Coherent

theorem explain_of_idle (hp : m.phase = .idle) : m.explain = .idle := by
  simp only [explain, hp]

theorem explain_of_halted (hp : m.phase = .halted) : m.explain = .halted := by
  simp only [explain, hp]

theorem explain_eq_running {state : String} {input : Option String} {next : Option (Rule × Nat)}
    (h : m.explain = .running state input next) :
    m.phase = .started ∧ m.state = state ∧ m.symbol? = input ∧ m.activeRule? = next := by
  unfold explain at h
  split at h <;> cases h
  exact ⟨‹_›, rfl, rfl, rfl⟩

/-- The explanation is about the phase that the machine is in. While it runs, the explanation has
the symbol under the head, and the row in it is the row in the snapshot. Without a rule in it a step
is skipped. A rule in it stands in that row, has the state and the symbol of the explanation as its
key, and is what a step executes; only if it would take the head off the tape the step fails, and
the machine shows what it did before. -/
theorem explain_foretells_step {program : Program} (h : Reachable program m) :
    (m.phase = .idle → m.explain = .idle) ∧
    (m.phase = .halted → m.explain = .halted) ∧
    (m.phase = .started → ∃ symbol next, m.tape.read m.head = some symbol ∧
      m.explain = .running m.state (some symbol) next ∧
      m.snapshot.activeRow = next.map Prod.snd ∧
      m.explain.text = "The machine is in state " ++ m.state ++ ". " ++
        ("The current input is " ++ symbol ++ ". ") ++ Explanation.nextSentences next) ∧
    (∀ state input, m.explain = .running state input none → m.step = (.ok .skipped, m)) ∧
    ∀ state input rule row, m.explain = .running state input (some (rule, row)) →
      m.program.slot? row = some (.filled rule) ∧
      rule.state = state ∧ some rule.input = input ∧
      (¬ m.Leaves rule.action → Executed m rule m.step.1 m.step.2) ∧
      (m.Leaves rule.action → m.step.1 = .error (.offTape m.head) ∧ m.step.2 = m ∧
        m.step.2.explain = m.explain ∧ m.step.2.snapshot = m.snapshot) := by
  have hm := h.coherent
  refine ⟨explain_of_idle, explain_of_halted, fun hp ↦ ?_, fun state input he ↦ ?_,
    fun state input rule row he ↦ ?_⟩
  · obtain ⟨symbol, hs, he⟩ := hm.explain_of_started hp
    refine ⟨symbol, m.activeRule?, hs, he, hm.activeRow_eq, ?_⟩
    rw [he]
    rfl
  · obtain ⟨-, -, -, hnext⟩ := explain_eq_running he
    exact step_skipped hnext
  · obtain ⟨hp, rfl, rfl, hnext⟩ := explain_eq_running he
    obtain ⟨-, symbol, hread, hlookup⟩ := hm.activeRule?_eq_some_iff.1 hnext
    obtain ⟨hslot, hfires⟩ := Program.lookup_eq_some hlookup
    obtain ⟨hstate, hinput⟩ := Rule.fires_iff.1 hfires
    refine ⟨hslot, hstate, ?_, hm.executed_step hnext, fun hl ↦ ?_⟩
    · rw [symbol?_of_started hp, hread, hinput]
    · rw [hm.step_of_leaves hnext hl]
      exact ⟨rfl, rfl, rfl, rfl⟩

theorem explain_foretells_step_twice :
    let rule : Rule := ⟨"A", "0", "A", "0", .left⟩
    let m : Machine := ⟨⟨[.vacant, .filled rule]⟩, ⟨["0", "0"]⟩, "A", 1, .started, some 1⟩
    Reachable m.program m ∧
    m.explain = .running "A" (some "0") (some (rule, 1)) ∧
    Executed m rule m.step.1 m.step.2 ∧
    m.step.2.explain = m.explain ∧
    m.step.2.step.1 = .error (.offTape 0) ∧
    m.step.2.step.2.explain = m.explain := by
  intro rule m
  have hbuild : (new m.program).perform (.build "0,0" "A" 2) = (.ok .done, m) := rfl
  have hm : Reachable m.program m := Reachable.new.of_perform hbuild
  have hexplain : m.explain = .running "A" (some "0") (some (rule, 1)) := rfl
  obtain ⟨-, -, -, -, hrule⟩ := explain_foretells_step hm
  obtain ⟨-, -, -, hexecuted, -⟩ := hrule _ _ _ _ hexplain
  obtain ⟨-, -, -, -, hrule'⟩ := explain_foretells_step (hm.perform .step)
  obtain ⟨-, -, -, -, hblocked⟩ := hrule' _ _ _ _ hexplain
  obtain ⟨herror, -, hshown, -⟩ := hblocked (.inl ⟨rfl, rfl⟩)
  refine ⟨hm, hexplain, hexecuted ?_, rfl, herror, hshown⟩
  rintro (⟨-, h⟩ | ⟨h, -⟩) <;> cases h

end OneTape.Machine
