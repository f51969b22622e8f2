import OneTape.Proofs.Machine.Steps

namespace OneTape.Machine

variable {m m' : Machine} {op : Operation} {e : Error}

theorem Performed.eq_of_error (h : Performed m op (.error e) m') : m' = m := by
  cases h
  rfl

theorem perform_of_error (h : (m.perform op).1 = .error e) : m.perform op = (.error e, m) := by
  have hp := m.performed op
  rw [h] at hp
  exact Prod.ext h hp.eq_of_error

theorem performAll_of_fixed {answer : Except Error Answer} (h : m.perform op = (answer, m))
    (n : Nat) : m.performAll (List.replicate n op) = (List.replicate n answer, m) := by
  induction n with
  | zero => rfl
  | succ n ih => simp only [List.replicate_succ, performAll_cons, h, ih]

/-- A machine whose head is on the tape can write, so a step fails only for a move. -/
theorem Coherent.step_error_iff (hm : m.Coherent) :
    m.step.1 = .error e ↔ e = .offTape m.head ∧
      ∃ rule row, m.activeRule? = some (rule, row) ∧ m.target? rule.action = none := by
  constructor
  · intro h
    have hs := m.stepped
    generalize m.step.2 = m' at hs
    rw [h] at hs
    cases hs with
    | blocked ha ht => exact ⟨rfl, _, _, ha, ht⟩
    | lost ha hlost => exact absurd (hm.head_lt (hm.started_of_activeRule? ha)) hlost
  · rintro ⟨rfl, rule, row, ha, ht⟩
    rw [step_blocked ha ht]

/-- An operation that fails leaves the machine as it is, so it fails in the same way however often
it is tried. A step fails just when the machine runs and the rule for the state and the symbol under
the head leads off the tape, and names the position of the head. -/
theorem failed_perform {program : Program} (h : Reachable program m) :
    (∀ op e, (m.perform op).1 = .error e → (m.perform op).2 = m ∧
      ∀ n, m.performAll (List.replicate n op) = (List.replicate n (.error e), m)) ∧
    ∀ e, m.step.1 = .error e ↔ e = .offTape m.head ∧ m.phase = .started ∧
      ∃ symbol rule row, m.tape.read m.head = some symbol ∧
        m.program.lookup m.state symbol = some (rule, row) ∧
        (rule.action = .left ∧ m.head = 0 ∨
          rule.action = .right ∧ m.head + 1 = m.tape.size) := by
  refine ⟨fun op e he ↦ ?_, fun e ↦ ?_⟩
  · have hp := perform_of_error he
    exact ⟨congrArg Prod.snd hp, performAll_of_fixed hp⟩
  · have hm := h.coherent
    rw [hm.step_error_iff]
    constructor
    · rintro ⟨he, rule, row, ha, ht⟩
      obtain ⟨hp, symbol, hread, hl⟩ := hm.activeRule?_eq_some_iff.1 ha
      exact ⟨he, hp, symbol, rule, row, hread, hl, (target?_eq_none_iff (hm.head_lt hp)).1 ht⟩
    · rintro ⟨he, hp, symbol, rule, row, hread, hl, hedge⟩
      exact ⟨he, rule, row, hm.activeRule?_eq_some_iff.2 ⟨hp, symbol, hread, hl⟩,
        (target?_eq_none_iff (hm.head_lt hp)).2 hedge⟩

theorem failed_perform_at_end :
    let program : Program := .ofRules [⟨"A", "0", "A", "1", .right⟩]
    let m : Machine := ⟨program, ⟨["", "0"]⟩, "A", 1, .started, some 0⟩
    Reachable program m ∧
    m.step.1 = .error (.offTape 1) ∧
    m.performAll [.step, .step] = ([.error (.offTape 1), .error (.offTape 1)], m) ∧
    m.performAll [.editRule none "A", .editRule none "A"] =
      ([.error (.locked .started), .error (.locked .started)], m) := by
  intro program m
  have hbuild : (new program).perform (.build ",0" "A" 2) = (.ok .done, m) := rfl
  have hm : Reachable program m := Reachable.new.of_perform hbuild
  obtain ⟨hfail, hstep⟩ := failed_perform hm
  have hend : m.step.1 = .error (.offTape 1) :=
    (hstep _).2 ⟨rfl, rfl, "0", _, 0, rfl, rfl, .inr ⟨rfl, rfl⟩⟩
  exact ⟨hm, hend, (hfail .step _ (congrArg (Except.map .stepped) hend)).2 2,
    (hfail (.editRule none "A") _ rfl).2 2⟩

end OneTape.Machine
