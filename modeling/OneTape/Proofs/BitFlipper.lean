import OneTape.Preset
import OneTape.Proofs.Machine.Textbook
import OneTape.Proofs.Machine.Zipper

namespace OneTape.Preset

open Machine

def IsBit (cell : String) : Prop := cell = "0" ∨ cell = "1"

instance (cell : String) : Decidable (IsBit cell) := inferInstanceAs (Decidable (_ ∨ _))

def invert (bit : String) : String := if bit = "0" then "1" else "0"

theorem sweeps_bit {cell : String} (h : IsBit cell) :
    Sweeps bitFlipper.program "scan" .right invert cell := by
  obtain rfl | rfl := h
  · exact ⟨0, rfl⟩
  · exact ⟨1, rfl⟩

theorem lookup_blank : bitFlipper.program.lookup "scan" "b" =
    some (⟨"scan", "b", "done", "b", .halt⟩, 2) := rfl

theorem lookup_other {cell : String} (h : ¬ IsBit cell) (hb : cell ≠ "b") :
    bitFlipper.program.lookup "scan" cell = none := by
  obtain ⟨h0, h1⟩ := not_or.1 h
  simp [bitFlipper, Program.ofRules, Program.lookup, Program.lookupIn, Rule.fires, Ne.symm h0,
    Ne.symm h1, Ne.symm hb]

section Endings

variable {w : List String} (hw : ∀ cell ∈ w, IsBit cell) (left : List String)

include hw

theorem bits_move {z : List String} (hz : z ≠ []) :
    Moves w.length (facingRight bitFlipper.program "scan" left (w ++ z))
      (facingRight bitFlipper.program "scan" ((w.map invert).reverse ++ left) z) :=
  sweep_right (fun cell hcell ↦ sweeps_bit (hw cell hcell)) left hz

theorem steps_blank (right : List String) (k : Nat) :
    (facingRight bitFlipper.program "scan" left (w ++ "b" :: right)).steps (w.length + 1 + k) =
      (List.replicate w.length (.ok .moved) ++ .ok .halted :: List.replicate k (.ok .skipped),
        ⟨bitFlipper.program, ⟨left.reverse ++ w.map invert ++ "b" :: right⟩, "done",
          left.length + w.length, .halted, none⟩) := by
  have hhalt := steps_halt lookup_blank rfl ((w.map invert).reverse ++ left) right k
  rw [Nat.add_assoc, Nat.add_comm 1 k, (bits_move hw left (List.cons_ne_nil _ _)).steps_add, hhalt]
  simp [Nat.add_comm]

theorem steps_other {cell : String} (h : ¬ IsBit cell) (hb : cell ≠ "b") (right : List String)
    (k : Nat) :
    (facingRight bitFlipper.program "scan" left (w ++ cell :: right)).steps (w.length + k) =
      (List.replicate w.length (.ok .moved) ++ List.replicate k (.ok .skipped),
        facingRight bitFlipper.program "scan" ((w.map invert).reverse ++ left)
          (cell :: right)) := by
  have hstay := steps_of_fixed
    (step_unmatched (lookup_other h hb) ((w.map invert).reverse ++ left) right) k
  rw [(bits_move hw left (List.cons_ne_nil _ _)).steps_add, hstay]

theorem steps_edge {last : String} (h : IsBit last) (k : Nat) :
    (facingRight bitFlipper.program "scan" left (w ++ [last])).steps (w.length + k) =
      (List.replicate w.length (.ok .moved) ++
          List.replicate k (.error (.offTape (left.length + w.length))),
        facingRight bitFlipper.program "scan" ((w.map invert).reverse ++ left) [last]) := by
  obtain ⟨row, hlast⟩ := sweeps_bit h
  have hstay := steps_of_fixed (step_rightmost hlast rfl ((w.map invert).reverse ++ left)) k
  rw [(bits_move hw left (List.cons_ne_nil _ _)).steps_add, hstay]
  simp [Nat.add_comm]

end Endings

/-- Built on a run `w` of bits with no bit behind it, the flipper inverts the run in as many moves.
Then it halts on a blank, and on any other cell it finds nothing to do for ever. If there is no cell
behind the run, the last bit stays as it is, for its rule would leave the tape. -/
theorem bitFlipper_run {p w z : List String} (hc : ∀ cell ∈ p ++ w ++ z, ',' ∉ cell.toList)
    (hne : w ++ z ≠ []) (hw : ∀ cell ∈ w, IsBit cell) (hz : ∀ cell ∈ z.head?, ¬ IsBit cell) :
    ∃ program m, Program.ofText bitFlipper.text = .ok program ∧
      (new program).build (Tape.text ⟨p ++ w ++ z⟩) "scan" (p.length + 1) = (.ok (), m) ∧
      (z.head? = some "b" → ∀ k,
        ((m.steps (w.length + 1 + k)).1, (m.steps (w.length + 1 + k)).2.textbook) =
          (List.replicate w.length (.ok .moved) ++ .ok .halted :: List.replicate k (.ok .skipped),
            ⟨"done", p.length + w.length, p ++ w.map invert ++ z, .halted⟩)) ∧
      (∀ cell ∈ z.head?, cell ≠ "b" → ∀ k,
        ((m.steps (w.length + k)).1, (m.steps (w.length + k)).2.textbook) =
          (List.replicate w.length (.ok .moved) ++ List.replicate k (.ok .skipped),
            ⟨"scan", p.length + w.length, p ++ w.map invert ++ z, .started⟩)) ∧
      (z = [] → ∀ k,
        ((m.steps (w.length - 1 + k)).1, (m.steps (w.length - 1 + k)).2.textbook) =
          (List.replicate (w.length - 1) (.ok .moved) ++
              List.replicate k (.error (.offTape (p.length + w.length - 1))),
            ⟨"scan", p.length + w.length - 1, p ++ w.dropLast.map invert ++ w.getLast?.toList,
              .started⟩)) := by
  have hplain : ∀ cell ∈ p.reverse.reverse ++ (w ++ z), ',' ∉ cell.toList := by simpa using hc
  have hbuild := build_facingRight bitFlipper.program "scan" hne hplain
  rw [List.reverse_reverse, ← List.append_assoc, List.length_reverse] at hbuild
  refine ⟨_, _, bitFlipper.ofText_text, hbuild, ?_, ?_, ?_⟩
  · intro hb k
    obtain ⟨right, rfl⟩ := List.head?_eq_some_iff.1 hb
    rw [steps_blank hw p.reverse right k]
    simp [textbook]
  · intro cell hcell hb k
    obtain ⟨right, rfl⟩ := List.head?_eq_some_iff.1 hcell
    rw [steps_other hw p.reverse (hz cell rfl) hb right k]
    simp [textbook, facingRight, Nat.add_comm]
  · intro hnil k
    subst hnil
    rw [List.append_nil] at hne
    -- The run ends on the last bit, whose rule is never carried out.
    obtain ⟨word, last, rfl⟩ := (List.eq_nil_or_concat w).resolve_left hne
    rw [List.concat_eq_append] at hw ⊢
    obtain ⟨hword, hlast⟩ := List.forall_mem_append.1 hw
    have hsteps := steps_edge hword p.reverse (hlast last List.mem_cons_self) k
    have hlength : (word ++ [last]).length - 1 = word.length := by simp
    rw [hlength, List.append_nil, hsteps]
    simp [textbook, facingRight, Nat.add_comm]

/-- A run of two bits behind another cell, in front of a blank, in front of a cell that is neither a
bit nor a blank, and at the end of the tape. -/
theorem bitFlipper_run_two :
    (∀ cell ∈ ["x"] ++ ["1", "0"] ++ ["b", ""], ',' ∉ cell.toList) ∧
    (∀ cell ∈ ["x"] ++ ["1", "0"] ++ ["2"], ',' ∉ cell.toList) ∧
    (∀ cell ∈ ["x"] ++ ["1", "0"] ++ [], ',' ∉ cell.toList) ∧
    (∀ cell ∈ ["1", "0"], IsBit cell) ∧ (∀ cell ∈ ["b", ""].head?, ¬ IsBit cell) ∧
    (∀ cell ∈ ["2"].head?, ¬ IsBit cell) ∧
    ∃ program, Program.ofText bitFlipper.text = .ok program ∧
      (∃ m, (new program).build "x,1,0,b," "scan" 2 = (.ok (), m) ∧
        ((m.steps 4).1, (m.steps 4).2.textbook) =
          ([.ok .moved, .ok .moved, .ok .halted, .ok .skipped],
            ⟨"done", 3, ["x", "0", "1", "b", ""], .halted⟩)) ∧
      (∃ m, (new program).build "x,1,0,2" "scan" 2 = (.ok (), m) ∧
        ((m.steps 4).1, (m.steps 4).2.textbook) =
          ([.ok .moved, .ok .moved, .ok .skipped, .ok .skipped],
            ⟨"scan", 3, ["x", "0", "1", "2"], .started⟩)) ∧
      ∃ m, (new program).build "x,1,0" "scan" 2 = (.ok (), m) ∧
        ((m.steps 3).1, (m.steps 3).2.textbook) =
          ([.ok .moved, .error (.offTape 2), .error (.offTape 2)],
            ⟨"scan", 2, ["x", "0", "0"], .started⟩) := by
  have hblank : ∀ cell ∈ ["x"] ++ ["1", "0"] ++ ["b", ""], ',' ∉ cell.toList := by decide
  have hother : ∀ cell ∈ ["x"] ++ ["1", "0"] ++ ["2"], ',' ∉ cell.toList := by decide
  have hedge : ∀ cell ∈ ["x"] ++ ["1", "0"] ++ [], ',' ∉ cell.toList := by decide
  have hw : ∀ cell ∈ ["1", "0"], IsBit cell := by decide
  have hb : ∀ cell ∈ ["b", ""].head?, ¬ IsBit cell := by decide
  have h2 : ∀ cell ∈ ["2"].head?, ¬ IsBit cell := by decide
  obtain ⟨program, m, hprogram, hbuild, hhalt, -, -⟩ := bitFlipper_run hblank (by decide) hw hb
  obtain ⟨program', m', hprogram', hbuild', -, hstay, -⟩ := bitFlipper_run hother (by decide) hw h2
  obtain ⟨program'', m'', hprogram'', hbuild'', -, -, hoff⟩ :=
    bitFlipper_run hedge (by decide) hw (by decide)
  cases hprogram.symm.trans hprogram'
  cases hprogram.symm.trans hprogram''
  exact ⟨hblank, hother, hedge, hw, hb, h2, program, hprogram, ⟨m, hbuild, hhalt rfl 1⟩,
    ⟨m', hbuild', hstay "2" rfl (by decide) 2⟩, m'', hbuild'', hoff rfl 2⟩

end OneTape.Preset
