import OneTape.Proofs.Machine.Edit
import OneTape.Proofs.Machine.Start

namespace OneTape.Machine

section Forgetting

variable {m m' : Machine} {tape state : String} {head : Nat}

theorem build_answer (m m' : Machine) (tape state : String) (head : Nat) :
    (m.build tape state head).1 = (m'.build tape state head).1 := by
  by_cases h : head = 0 ∨ (Tape.ofText tape).size < head
  · rw [build_outside m state h, build_outside m' state h]
  · rw [build_inside m state h, build_inside m' state h]

theorem build_congr (hp : m.program = m'.program) (h : (m.build tape state head).1 = .ok ()) :
    m.build tape state head = m'.build tape state head := by
  by_cases hh : head = 0 ∨ (Tape.ofText tape).size < head
  · rw [build_outside m state hh] at h
    cases h
  · rw [build_inside m state hh, build_inside m' state hh]
    exact congrArg (Prod.mk _) (refresh_congr hp rfl rfl rfl rfl)

theorem performAll_build_congr (h : m.build tape state head = m'.build tape state head)
    (ops : List Operation) :
    m.performAll (.build tape state head :: ops) =
      m'.performAll (.build tape state head :: ops) := by
  simp only [performAll_cons, perform, h]

/-- Whatever was done to two machines that have come to the same program: a build succeeds on both
or on neither, and if it does there is no difference any more between them, nor to a new machine
with this program, in what they are and in all they answer from then on. -/
theorem build_forgets (program program' : Program) (ops ops' : List Operation) :
    let m := ((new program).performAll ops).2
    let m' := ((new program').performAll ops').2
    m.program = m'.program → ∀ tape state head,
      ((m.build tape state head).1 = .ok () ↔ (m'.build tape state head).1 = .ok ()) ∧
      ((m.build tape state head).1 = .ok () →
        m.build tape state head = m'.build tape state head ∧
        m.build tape state head = (new m.program).build tape state head ∧
        ∀ later, m.performAll (.build tape state head :: later) =
          m'.performAll (.build tape state head :: later)) := by
  intro m m' hp tape state head
  refine ⟨?_, fun h ↦ ?_⟩
  · rw [m.build_answer m']
  · have hbuild := build_congr hp h
    exact ⟨hbuild, build_congr rfl h, performAll_build_congr hbuild⟩

/-- A machine that halted, and one that runs on another tape after a build that failed. -/
theorem build_forgets_halted :
    let program : Program := .ofRules [⟨"A", "1", "B", "0", .halt⟩]
    let ops : List Operation := [.build "1" "A" 1, .step]
    let ops' : List Operation :=
      [.editRule none "A 1 : B 0 H", .build "x,y,z" "C" 3, .build "" "A" 2]
    let m := ((new program).performAll ops).2
    let m' := ((new .empty).performAll ops').2
    m = ⟨program, ⟨["0"]⟩, "B", 0, .halted, none⟩ ∧
    m' = ⟨program, ⟨["x", "y", "z"]⟩, "C", 2, .started, none⟩ ∧
    m.build ",1" "A" 2 = m'.build ",1" "A" 2 ∧
    m.build ",1" "A" 2 = (new program).build ",1" "A" 2 ∧
    m.performAll [.build ",1" "A" 2, .addVacantRow, .step, .step, .reset] =
      m'.performAll [.build ",1" "A" 2, .addVacantRow, .step, .step, .reset] := by
  intro program ops ops' m m'
  have hm : m = ⟨program, ⟨["0"]⟩, "B", 0, .halted, none⟩ := rfl
  have hm' : m' = ⟨program, ⟨["x", "y", "z"]⟩, "C", 2, .started, none⟩ := rfl
  have hp : m.program = m'.program := by rw [hm, hm']
  have hok : (m.build ",1" "A" 2).1 = .ok () := by rw [hm]; rfl
  obtain ⟨hbuild, hnew, hlater⟩ := (build_forgets program .empty ops ops' hp ",1" "A" 2).2 hok
  refine ⟨hm, hm', hbuild, ?_, hlater _⟩
  have hprogram : m.program = program := by rw [hm]
  rw [hprogram] at hnew
  exact hnew

end Forgetting

section Resuming

variable {program : Program} {m m' : Machine}

/-- Unless the machine is idle, a comma in a cell was written by a rule. -/
def Plain (m : Machine) : Prop :=
  m.phase ≠ .idle → (∀ rule ∈ m.program.rules, ',' ∉ rule.output.toList) →
    ∀ cell ∈ m.tape.cells, ',' ∉ cell.toList

theorem Coherent.mem_rules (hm : m.Coherent) {rule : Rule} {row : Nat}
    (h : m.activeRule? = some (rule, row)) : rule ∈ m.program.rules := by
  obtain ⟨-, symbol, -, hl⟩ := hm.activeRule?_eq_some_iff.1 h
  exact Program.mem_rules.2 (List.mem_of_getElem? (Program.lookup_eq_some hl).1)

theorem Plain.write (hm : m.Coherent) (hplain : m.Plain) {rule : Rule} {row : Nat}
    (h : m.activeRule? = some (rule, row))
    (hc : ∀ rule ∈ m.program.rules, ',' ∉ rule.output.toList) :
    ∀ cell ∈ m.tape.cells.set m.head rule.output, ',' ∉ cell.toList := by
  have hp : m.phase ≠ .idle := by simp [hm.started_of_activeRule? h]
  intro cell hcell
  obtain hold | rfl := List.mem_or_eq_of_mem_set hcell
  · exact hplain hp hc cell hold
  · exact hc rule (hm.mem_rules h)

theorem Stepped.plain {answer : Except Error Outcome} (h : Stepped m answer m')
    (hm : m.Coherent) (hplain : m.Plain) : m'.Plain := by
  cases h with
  | skipped | blocked | lost => exact hplain
  | moved ha | halted ha => exact fun _ hc ↦ hplain.write hm ha hc

theorem plain_build (hplain : m.Plain) (tape state : String) (head : Nat) :
    (m.build tape state head).2.Plain := by
  by_cases h : head = 0 ∨ (Tape.ofText tape).size < head
  · rwa [build_outside m state h]
  · rw [build_inside m state h]
    exact fun _ _ cell hcell ↦ Tape.comma_of_ofText hcell

theorem exists_build {op : Operation} (h : op.builds) :
    ∃ tape state head, ∀ m : Machine, (m.perform op).2 = (m.build tape state head).2 := by
  cases op with
  | build tape state head => exact ⟨tape, state, head, fun _ ↦ rfl⟩
  | buildFrom config => exact ⟨config.tape, config.state, config.head, fun _ ↦ rfl⟩
  | _ => cases h

theorem Plain.perform (hm : m.Coherent) (hplain : m.Plain) (op : Operation) :
    (m.perform op).2.Plain := by
  by_cases hb : op.builds
  · obtain ⟨tape, state, head, hbuild⟩ := exists_build hb
    rw [hbuild]
    exact plain_build hplain tape state head
  · have h := m.performed op
    generalize (m.perform op).1 = answer, (m.perform op).2 = m' at h ⊢
    cases h with
    | failed => exact hplain
    | built hop => exact absurd hop hb
    | stepped hs => exact hs.plain hm hplain
    | reset => exact fun hp ↦ absurd rfl hp
    | edited hop hidle => exact fun hp ↦ absurd hidle hp

theorem Reachable.plain (h : Reachable program m) : m.Plain := by
  induction h with
  | new => exact fun hp ↦ absurd rfl hp
  | perform h op ih => exact ih.perform h.coherent op

theorem Reachable.steps (h : Reachable program m) (n : Nat) : Reachable program (m.steps n).2 :=
  steps_invariant (fun _ hm ↦ hm.perform .step) h n

theorem Stepped.phase {answer : Except Error Outcome} (h : Stepped m answer m')
    (ha : answer ≠ .ok .halted) : m'.phase = m.phase := by
  cases h with
  | skipped | blocked | lost | moved => rfl
  | halted => exact absurd rfl ha

/-- Only halting ends a run: a step that finds no rule or fails leaves the machine running. -/
theorem phase_steps {n : Nat} (h : .ok .halted ∉ (m.steps n).1) :
    (m.steps n).2.phase = m.phase := by
  induction n generalizing m with
  | zero => rfl
  | succ n ih =>
    simp only [steps, List.mem_cons, not_or] at h
    exact (ih h.2).trans (m.stepped.phase (Ne.symm h.1))

theorem Reachable.build_text (h : Reachable program m) (hs : m.phase = .started)
    (hc : ∀ rule ∈ m.program.rules, ',' ∉ rule.output.toList) (hp : m'.program = m.program) :
    m'.build m.tape.text m.state (m.head + 1) = (.ok (), m) :=
  h.coherent.build_text hs (h.plain (by simp [hs]) hc) hp

/-- A machine that runs a program without commas in its outputs is built again from the text of its
tape, its state and its head. So its run can be broken off after any steps that do not halt, and be
taken up by any machine with its program. -/
theorem build_resumes (h : Reachable program m) (hs : m.phase = .started)
    (hc : ∀ rule ∈ m.program.rules, ',' ∉ rule.output.toList) (hp : m'.program = m.program) :
    m'.build m.tape.text m.state (m.head + 1) = (.ok (), m) ∧
    ∀ n k, .ok .halted ∉ (m.steps n).1 →
      let stop := (m.steps n).2
      ∃ r, m'.build stop.tape.text stop.state (stop.head + 1) = (.ok (), r) ∧
        m.steps (n + k) = ((m.steps n).1 ++ (r.steps k).1, (r.steps k).2) := by
  refine ⟨h.build_text hs hc hp, fun n k hn ↦ ⟨(m.steps n).2, ?_, m.steps_add n k⟩⟩
  have hprogram := m.program_steps n
  refine (h.steps n).build_text ((phase_steps hn).trans hs) ?_ (hp.trans hprogram.symm)
  rwa [hprogram]

theorem build_resumes_after_one :
    let program : Program := .ofRules [⟨"A,B", "", "A,B", "1", .right⟩]
    let m : Machine := ⟨program, ⟨["", "", ""]⟩, "A,B", 0, .started, some 0⟩
    Reachable program m ∧ m.phase = .started ∧
    (∀ rule ∈ m.program.rules, ',' ∉ rule.output.toList) ∧
    (new program).build ",," "A,B" 1 = (.ok (), m) ∧
    ∃ r, (new program).build "1,," "A,B" 2 = (.ok (), r) ∧
      m.steps 3 = ([.ok .moved] ++ (r.steps 2).1, (r.steps 2).2) := by
  intro program m
  have hbuild : (new program).perform (.build ",," "A,B" 1) = (.ok .done, m) := rfl
  have hm : Reachable program m := Reachable.new.of_perform hbuild
  have hc : ∀ rule ∈ m.program.rules, ',' ∉ rule.output.toList := by decide
  have hp : (new program).program = m.program := rfl
  obtain ⟨hagain, hsteps⟩ := build_resumes hm rfl hc hp
  have hmoved : (m.steps 1).1 = [.ok .moved] := rfl
  obtain ⟨r, hr, hrun⟩ := hsteps 1 2 (by simp [hmoved])
  exact ⟨hm, rfl, hc, hagain, r, hr, hrun⟩

end Resuming

end OneTape.Machine
