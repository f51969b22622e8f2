import OneTape.Proofs.Machine.Steps

namespace OneTape

/-- A machine that keeps no row for the next step, but searches its program at every step. -/
structure Textbook where
  state : String
  head : Nat
  cells : List String
  mode : Phase
deriving DecidableEq, Repr

namespace Textbook

def start (tape state : String) (head : Nat) : Textbook :=
  ⟨state, head - 1, (Tape.ofText tape).cells, .started⟩

def rule? (program : Program) (c : Textbook) : Option Rule :=
  program.rules.find? fun rule ↦ rule.state = c.state ∧ c.cells[c.head]? = some rule.input

theorem rule?_eq (program : Program) (c : Textbook) : c.rule? program =
    c.cells[c.head]?.bind fun symbol ↦ (program.lookup c.state symbol).map Prod.fst := by
  cases hc : c.cells[c.head]? with
  | none => simp [rule?, hc]
  | some symbol =>
    simp only [rule?, hc, Option.some.injEq, Option.bind_some, Program.lookup_map_fst]
    congr 1
    funext rule
    rw [Bool.eq_iff_iff, Rule.fires_iff, decide_eq_true_iff, eq_comm (a := symbol)]

def Leaves (c : Textbook) (action : Action) : Prop :=
  action = .left ∧ c.head = 0 ∨ action = .right ∧ c.head + 1 = c.cells.length

instance (c : Textbook) (action : Action) : Decidable (c.Leaves action) :=
  inferInstanceAs (Decidable (_ ∨ _))

def carryOut (c : Textbook) (rule : Rule) : Outcome × Textbook :=
  let cells := c.cells.set c.head rule.output
  match rule.action with
  | .left => (.moved, ⟨rule.next, c.head - 1, cells, .started⟩)
  | .right => (.moved, ⟨rule.next, c.head + 1, cells, .started⟩)
  | .halt => (.halted, ⟨rule.next, c.head, cells, .halted⟩)

def step (program : Program) (c : Textbook) : Except Error Outcome × Textbook :=
  if c.mode = .started then
    match c.rule? program with
    | none => (.ok .skipped, c)
    | some rule =>
      if c.Leaves rule.action then (.error (.offTape c.head), c)
      else (.ok (c.carryOut rule).1, (c.carryOut rule).2)
  else (.ok .skipped, c)

def steps (program : Program) (c : Textbook) : Nat → List (Except Error Outcome) × Textbook
  | 0 => ([], c)
  | n + 1 =>
    let next := (c.step program).2
    ((c.step program).1 :: (next.steps program n).1, (next.steps program n).2)

end Textbook

namespace Machine

def textbook (m : Machine) : Textbook := ⟨m.state, m.head, m.tape.cells, m.phase⟩

variable {m : Machine}

theorem leaves_iff (h : m.head < m.tape.size) (action : Action) :
    m.textbook.Leaves action ↔ m.target? action = none :=
  (target?_eq_none_iff h).symm

theorem rule?_textbook (hm : m.Coherent) (h : m.phase = .started) :
    m.textbook.rule? m.program = m.activeRule?.map Prod.fst := by
  rw [Textbook.rule?_eq, hm.activeRule?_eq, symbol?_of_started h, Option.map_bind]
  rfl

theorem textbook_carryOut (rule : Rule) {head : Nat} (h : m.phase = .started)
    (ht : m.target? rule.action = some head) (ha : rule.action ≠ .halt) :
    m.textbook.carryOut rule = (.moved, (m.carryOut rule head).refresh.textbook) := by
  cases hr : rule.action with
  | left =>
    simp only [hr, target?] at ht
    split at ht
    · cases ht
    · cases ht
      simp [Textbook.carryOut, textbook, carryOut, hr, h]
  | right =>
    simp only [hr, target?] at ht
    split at ht
    · cases ht
      simp [Textbook.carryOut, textbook, carryOut, hr, h]
    · cases ht
  | halt => exact absurd hr ha

theorem step_textbook (hm : m.Coherent) :
    m.textbook.step m.program = (m.step.1, m.step.2.textbook) := by
  by_cases h : m.phase = .started
  · have hlt := hm.head_lt h
    have hstep : m.textbook.step m.program = match m.activeRule?.map Prod.fst with
        | none => (.ok .skipped, m.textbook)
        | some rule =>
          if m.textbook.Leaves rule.action then (.error (.offTape m.head), m.textbook)
          else (.ok (m.textbook.carryOut rule).1, (m.textbook.carryOut rule).2) := by
      rw [← rule?_textbook hm h]
      exact if_pos h
    rw [hstep]
    have hs := m.stepped
    generalize m.step.1 = answer, m.step.2 = m' at hs ⊢
    cases hs with
    | skipped ha => simp only [ha, Option.map_none]
    | blocked ha ht => simp only [ha, Option.map_some, if_pos ((leaves_iff hlt _).2 ht)]
    | lost ha hlost => exact absurd hlt hlost
    | moved ha ht _ hr =>
      simp only [ha, Option.map_some, leaves_iff hlt, ht, reduceCtorEq, if_false,
        textbook_carryOut _ h ht hr]
    | halted ha _ hr =>
      simp only [ha, Option.map_some, leaves_iff hlt, hr, target?, reduceCtorEq, if_false,
        Textbook.carryOut]
      rfl
  · rw [step_skipped (hm.activeRule?_of_ne_started h)]
    exact if_neg h

theorem steps_textbook (hm : m.Coherent) (n : Nat) :
    m.textbook.steps m.program n = ((m.steps n).1, (m.steps n).2.textbook) := by
  induction n generalizing m with
  | zero => rfl
  | succ n ih =>
    have hrest := ih hm.step
    rw [m.stepped.program] at hrest
    simp only [Textbook.steps, steps, step_textbook hm, hrest]

theorem textbook_build {m' : Machine} {tape state : String} {head : Nat}
    (h : m.build tape state head = (.ok (), m')) :
    m'.textbook = .start tape state head ∧ m'.program = m.program := by
  by_cases hh : head = 0 ∨ (Tape.ofText tape).size < head
  · simp [build_outside m state hh] at h
  · rw [build_inside m state hh] at h
    cases h
    exact ⟨rfl, rfl⟩

/-- From a build on, so many steps give the answers of the textbook machine and lead to its state,
head, cells and mode. The program and the length of the tape stay, and each step writes at most the
cell under the head. -/
theorem steps_eq_textbook {m' : Machine} {tape state : String} {head : Nat}
    (h : m.build tape state head = (.ok (), m')) (n : Nat) :
    ((m'.steps n).1, (m'.steps n).2.textbook) =
      (Textbook.start tape state head).steps m.program n ∧
    (m'.steps n).2.program = m.program ∧
    (m'.steps n).2.tape.size = (Tape.ofText tape).size ∧
    ∀ i, i ≠ (m'.steps n).2.head →
      (m'.steps (n + 1)).2.tape.read i = (m'.steps n).2.tape.read i := by
  obtain ⟨hstart, hprogram⟩ := textbook_build h
  refine ⟨?_, (m'.program_steps n).trans hprogram, ?_, fun i hi ↦ ?_⟩
  · rw [← hstart, ← hprogram]
    exact (steps_textbook (coherent_build h) n).symm
  · have hcells : m'.tape.cells = (Tape.ofText tape).cells := congrArg Textbook.cells hstart
    exact (m'.size_steps n).trans (congrArg List.length hcells)
  · rw [steps_succ]
    exact (m'.steps n).2.stepped.read_of_ne hi

theorem steps_eq_textbook_blocked :
    let program : Program := .ofRules [⟨"A", "0", "A", "1", .right⟩]
    let m : Machine := ⟨program, ⟨["0", "0"]⟩, "A", 0, .started, some 0⟩
    (new program).build "0,0" "A" 1 = (.ok (), m) ∧
    (((m.steps 2).1, (m.steps 2).2.textbook) =
        (Textbook.start "0,0" "A" 1).steps program 2 ∧
      (m.steps 2).2.program = program ∧
      (m.steps 2).2.tape.size = (Tape.ofText "0,0").size ∧
      ∀ i, i ≠ (m.steps 2).2.head → (m.steps 3).2.tape.read i = (m.steps 2).2.tape.read i) ∧
    (m.steps 2).1 = [.ok .moved, .error (.offTape 1)] := by
  intro program m
  have h : (new program).build "0,0" "A" 1 = (.ok (), m) := rfl
  exact ⟨h, steps_eq_textbook h 2, rfl⟩

end Machine

end OneTape
