import Mathlib.Data.Fintype.BigOperators
import OneTape.Proofs.Machine.Confined
import OneTape.Proofs.Machine.Course

namespace OneTape

namespace Program

def configurations (p : Program) (start : String) (tape : Tape) :
    Finset (String × Nat × (Fin tape.size → String)) :=
  p.states start ×ˢ Finset.range tape.size ×ˢ Fintype.piFinset fun _ ↦ p.symbols tape

theorem card_configurations (p : Program) (start : String) (tape : Tape) :
    (p.configurations start tape).card =
      (p.states start).card * tape.size * (p.symbols tape).card ^ tape.size := by
  rw [configurations, Finset.card_product, Finset.card_product, Finset.card_range,
    Fintype.card_piFinset_const, Nat.mul_assoc]

end Program

namespace Machine

variable {p : Program} {start : String} {tape : Tape} {m m' : Machine} {i j n : Nat}

def configuration (m : Machine) (size : Nat) : String × Nat × (Fin size → String) :=
  (m.state, m.head, fun i ↦ (m.tape.read i).getD "")

theorem Confined.configuration_mem (hm : m.Confined p start tape) (hs : m.phase = .started) :
    m.configuration tape.size ∈ p.configurations start tape := by
  have hhead : m.head < tape.size := hm.size ▸ hm.coherent.head_lt hs
  rw [Program.configurations, Finset.mem_product, Finset.mem_product, Fintype.mem_piFinset]
  refine ⟨hm.state, Finset.mem_range.2 hhead, fun i ↦ ?_⟩
  have hlt : i < m.tape.size := by rw [hm.size]; exact i.isLt
  obtain ⟨symbol, hread⟩ := exists_read hlt
  change (m.tape.read i).getD "" ∈ p.symbols tape
  rw [hread]
  exact hm.cells symbol (List.mem_of_getElem? hread)

/-- The row kept for the next step hides nothing: machines that run in the same configuration are
the same. -/
theorem Confined.eq_of_configuration (hm : m.Confined p start tape)
    (hm' : m'.Confined p start tape) (hs : m.phase = .started) (hs' : m'.phase = .started)
    (h : m.configuration tape.size = m'.configuration tape.size) : m = m' := by
  obtain ⟨hstate, hhead, hread⟩ := by simpa only [configuration, Prod.mk.injEq] using h
  have hcells : m.tape.cells = m'.tape.cells := by
    refine List.ext_getElem (hm.size.trans hm'.size.symm) fun i hi hi' ↦ ?_
    have hcell := congrFun hread ⟨i, hm.size ▸ hi⟩
    simpa only [Tape.read, List.getElem?_eq_getElem hi, List.getElem?_eq_getElem hi',
      Option.getD_some] using hcell
  rw [← hm.coherent.settled, ← hm'.coherent.settled]
  exact refresh_congr (hm.program.trans hm'.program.symm) (congrArg Tape.mk hcells) hstate hhead
    (hs.trans hs'.symm)

/-- Once a run comes back to where it was, it has made all its moves and begins with them again. -/
theorem moved_of_return (hij : i < j) (hreturn : (m.steps i).2 = (m.steps j).2)
    (h : ∀ k < j, (m.steps k).2.step.1 = .ok .moved) (k : Nat) :
    (m.steps k).2.step.1 = .ok .moved := by
  induction k using Nat.strong_induction_on with
  | _ k ih =>
    rcases Nat.lt_or_ge k j with hk | hk
    · exact h k hk
    · -- From `j` on, each machine is one that the run came through `j - i` steps before.
      obtain ⟨d, rfl⟩ := Nat.exists_eq_add_of_le hk
      have hback : (m.steps (j + d)).2 = (m.steps (i + d)).2 := by
        rw [steps_add, steps_add, hreturn]
      rw [hback]
      exact ih (i + d) (by omega)

theorem forall_moved_iff : (∀ i < n, (m.steps i).2.step.1 = .ok .moved) ↔
    (m.steps n).1 = List.replicate n (.ok .moved) := by
  refine ⟨fun h ↦ ?_, fun h i hi ↦ ?_⟩
  · rw [(moves_of_forall h).steps]
  · obtain ⟨k, rfl⟩ := Nat.exists_eq_add_of_lt hi
    refine List.eq_of_mem_replicate (n := i + k + 1) ?_
    rw [← h, Nat.add_right_comm, steps_add, steps_succ]
    simp

theorem started_of_moved (hs : m.phase = .started)
    (h : (m.steps n).1 = List.replicate n (.ok .moved)) : (m.steps n).2.phase = .started := by
  refine (phase_steps fun hmem ↦ ?_).trans hs
  rw [h] at hmem
  cases List.eq_of_mem_replicate hmem

theorem Confined.exists_return (hm : m.Confined p start tape) (hs : m.phase = .started)
    (hn : (p.configurations start tape).card ≤ n)
    (h : ∀ i < n, (m.steps i).2.step.1 = .ok .moved) :
    ∃ i j, i < j ∧ j ≤ n ∧ (m.steps i).2 = (m.steps j).2 := by
  have hstarted : ∀ i ≤ n, (m.steps i).2.phase = .started := fun i hi ↦
    started_of_moved hs (forall_moved_iff.1 fun k hk ↦ h k (Nat.lt_of_lt_of_le hk hi))
  have hcard : (p.configurations start tape).card < (Finset.range (n + 1)).card := by
    rw [Finset.card_range]
    exact Nat.lt_succ_of_le hn
  -- One machine more than there are configurations, so two of them share theirs.
  obtain ⟨i, hi, j, hj, hne, heq⟩ := Finset.exists_ne_map_eq_of_card_lt_of_maps_to hcard
    (f := fun i ↦ (m.steps i).2.configuration tape.size) fun i hi ↦
      (hm.steps i).configuration_mem (hstarted i (Nat.lt_succ_iff.1 (Finset.mem_range.1 hi)))
  have hi := Nat.lt_succ_iff.1 (Finset.mem_range.1 hi)
  have hj := Nat.lt_succ_iff.1 (Finset.mem_range.1 hj)
  have hsame := (hm.steps i).eq_of_configuration (hm.steps j) (hstarted i hi) (hstarted j hj) heq
  rcases Nat.lt_or_gt_of_ne hne with hlt | hgt
  · exact ⟨i, j, hlt, hj, hsame⟩
  · exact ⟨j, i, hgt, hi, hsame.symm⟩

/-- From a build on, a machine stays within the states and the symbols of its start and of its
rules, and the tape keeps its length. So there are only so many configurations, and if as many steps
move the head, all later steps do. -/
theorem moves_forever {text : String} {head : Nat} (h : m.build text start head = (.ok (), m')) :
    let tape := Tape.ofText text
    let limit := (m.program.states start).card * tape.size *
      (m.program.symbols tape).card ^ tape.size
    (∀ n,
      ((m'.steps n).2.state = start ∨
        ∃ rule ∈ m.program.rules, rule.next = (m'.steps n).2.state) ∧
      (∀ cell ∈ (m'.steps n).2.tape.cells,
        cell ∈ tape.cells ∨ ∃ rule ∈ m.program.rules, rule.output = cell) ∧
      (m'.steps n).2.tape.size = tape.size) ∧
    ((m'.steps limit).1 = List.replicate limit (.ok .moved) →
      ∀ n, (m'.steps n).1 = List.replicate n (.ok .moved)) := by
  intro tape limit
  have hm : m'.Confined m.program start tape := confined_build h
  have hs : m'.phase = .started := congrArg Textbook.mode (textbook_build h).1
  refine ⟨fun n ↦ ?_, fun hlimit n ↦ ?_⟩
  · have hn := hm.steps n
    exact ⟨Program.mem_states.1 hn.state,
      fun cell hcell ↦ Program.mem_symbols.1 (hn.cells cell hcell), hn.size⟩
  · have hmoved := forall_moved_iff.2 hlimit
    obtain ⟨i, j, hij, hj, hreturn⟩ :=
      hm.exists_return hs (Program.card_configurations ..).le hmoved
    have hall := moved_of_return hij hreturn fun k hk ↦ hmoved k (Nat.lt_of_lt_of_le hk hj)
    exact forall_moved_iff.1 fun k _ ↦ hall k

theorem moves_forever_to_and_fro :
    let program : Program := .ofRules [⟨"A", "0", "B", "0", .right⟩, ⟨"B", "0", "A", "0", .left⟩]
    let m : Machine := ⟨program, ⟨["0", "0"]⟩, "A", 0, .started, some 0⟩
    (new program).build "0,0" "A" 1 = (.ok (), m) ∧
    (program.states "A").card = 2 ∧ (program.symbols (.ofText "0,0")).card = 1 ∧
    (m.steps 4).1 = List.replicate 4 (.ok .moved) ∧
    ∀ n, (m.steps n).1 = List.replicate n (.ok .moved) := by
  intro program m
  have h : (new program).build "0,0" "A" 1 = (.ok (), m) := rfl
  have hstates : (program.states "A").card = 2 := by decide
  have hsymbols : (program.symbols (.ofText "0,0")).card = 1 := by decide
  have hto : m.step = (.ok .moved, ⟨program, ⟨["0", "0"]⟩, "B", 1, .started, some 1⟩) := rfl
  have hround : Moves 2 m m := .cons hto (.one rfl)
  have hmoved : (m.steps 4).1 = List.replicate 4 (.ok .moved) :=
    congrArg Prod.fst (hround.trans hround).steps
  obtain ⟨-, hforever⟩ := moves_forever h
  rw [show (new program).program = program from rfl, hstates, hsymbols] at hforever
  exact ⟨h, hstates, hsymbols, hmoved, hforever hmoved⟩

end Machine

end OneTape
