import OneTape.Proofs.Machine.Rebuild
import OneTape.Proofs.Machine.Textbook
import OneTape.Proofs.Program.Decision

namespace OneTape

namespace Textbook

variable {p q : Program} (h : p.Agrees q)

include h

theorem rule?_congr (c : Textbook) : c.rule? p = c.rule? q := by
  rw [rule?_eq, rule?_eq]
  congr 1
  funext symbol
  exact h c.state symbol

theorem step_congr (c : Textbook) : c.step p = c.step q := by
  simp only [step, rule?_congr h]

theorem steps_congr (c : Textbook) (n : Nat) : c.steps p n = c.steps q n := by
  induction n generalizing c with
  | zero => rfl
  | succ n ih => simp only [steps, step_congr h, ih]

end Textbook

namespace Machine

open Program

variable {m m' b b' : Machine} {tape state : String} {head : Nat}

/-- The row kept for the next step is another in each machine, so the runs are compared through the
textbook machine, which keeps none. -/
theorem steps_of_agrees (h : m.program.Agrees m'.program)
    (hb : m.build tape state head = (.ok (), b)) (hb' : m'.build tape state head = (.ok (), b'))
    (n : Nat) :
    (b.steps n).1 = (b'.steps n).1 ∧ (b.steps n).2.textbook = (b'.steps n).2.textbook := by
  obtain ⟨hstart, hprogram⟩ := textbook_build hb
  obtain ⟨hstart', hprogram'⟩ := textbook_build hb'
  have hrun := steps_textbook (coherent_build hb) n
  have hrun' := steps_textbook (coherent_build hb') n
  rw [hstart, hprogram] at hrun
  rw [hstart', hprogram', ← Textbook.steps_congr h] at hrun'
  exact Prod.ext_iff.1 (hrun.symm.trans hrun')

/-- If two programs decide alike, their machines cannot be told apart but for the rows: the same
builds fail with the same errors, and after the others any number of steps gives the same answers
and leaves the same state, head, cells and phase. Programs still decide alike when the dead rows are
taken out, and when neighbours that do not share a key change places. -/
theorem agreeing_programs_run_alike :
    (∀ m m' : Machine, m.program.Agrees m'.program → ∀ tape state head,
      (m.build tape state head).1 = (m'.build tape state head).1 ∧
      ∀ b b', m.build tape state head = (.ok (), b) → m'.build tape state head = (.ok (), b') →
        ∀ n, (b.steps n).1 = (b'.steps n).1 ∧
          (b.steps n).2.textbook = (b'.steps n).2.textbook) ∧
    (∀ p : Program, p.Agrees p.pruned) ∧
    ∀ (front back : List Slot) (slot slot' : Slot), slot.sharesKey slot' = false →
      Agrees ⟨front ++ slot :: slot' :: back⟩ ⟨front ++ slot' :: slot :: back⟩ := by
  refine ⟨fun m m' h tape state head ↦ ⟨m.build_answer m' .., fun b b' hb hb' n ↦ ?_⟩,
    agrees_pruned, fun front back slot slot' h ↦ agrees_exchange h front back⟩
  exact steps_of_agrees h hb hb' n

theorem agreeing_programs_run_alike_rotated :
    let right : Rule := ⟨"A", "0", "B", "1", .right⟩
    let late : Rule := ⟨"A", "0", "A", "0", .halt⟩
    let stop : Rule := ⟨"B", "1", "B", "0", .halt⟩
    let p : Program := ⟨[.vacant, .filled right, .filled late, .filled stop]⟩
    let q : Program := ⟨[.filled stop, .filled right]⟩
    p.pruned = .ofRules [right, stop] ∧ p.Agrees q ∧
    ∃ b b', (new p).build "0,1" "A" 1 = (.ok (), b) ∧ (new q).build "0,1" "A" 1 = (.ok (), b') ∧
      b.active = some 1 ∧ b'.active = some 1 ∧
      (b.steps 3).1 = [.ok .moved, .ok .halted, .ok .skipped] ∧ (b'.steps 3).1 = (b.steps 3).1 ∧
      (b'.steps 3).2.textbook = (b.steps 3).2.textbook := by
  intro right late stop p q
  obtain ⟨hrun, hpruned, hexchange⟩ := agreeing_programs_run_alike
  have hp : p.Agrees (.ofRules [right, stop]) := hpruned p
  have hq : Agrees (.ofRules [right, stop]) q :=
    hexchange [] [] (.filled right) (.filled stop) (by decide)
  have h : p.Agrees q := fun state symbol ↦ (hp state symbol).trans (hq state symbol)
  obtain ⟨-, hsteps⟩ := hrun (new p) (new q) h "0,1" "A" 1
  obtain ⟨hanswers, htextbook⟩ := hsteps _ _ rfl rfl 3
  exact ⟨rfl, h, _, _, rfl, rfl, rfl, rfl, rfl, hanswers.symm, htextbook.symm⟩

end Machine

end OneTape
