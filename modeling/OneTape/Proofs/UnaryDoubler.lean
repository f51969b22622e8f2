import Mathlib.Tactic.Ring
import OneTape.Preset
import OneTape.Proofs.Machine.Zipper

namespace OneTape.Preset

open Machine

/-- The marks on the left of the next one after so many rounds, from the nearest on. -/
def marks (rounds : Nat) : List String :=
  List.replicate rounds "X" ++ List.replicate rounds "Y"

theorem marks_length (i : Nat) : (marks i).length = 2 * i := by
  simp only [marks, List.length_append, List.length_replicate]
  omega

theorem marks_succ (i : Nat) (left : List String) :
    marks (i + 1) ++ left = "X" :: marks i ++ "Y" :: left := by
  have hy : List.replicate (i + 1) "Y" = List.replicate i "Y" ++ ["Y"] := List.replicate_succ'
  rw [marks, hy, List.replicate_succ, marks]
  simp

theorem mem_marks {i : Nat} {cell : String} (h : cell ∈ marks i) : cell = "X" ∨ cell = "Y" := by
  simp only [marks, List.mem_append, List.mem_replicate] at h
  exact h.imp And.right And.right

theorem marks_map_one (i : Nat) :
    ((marks i).map fun _ ↦ "1").reverse = List.replicate (2 * i) "1" := by
  rw [List.map_const', marks_length, List.reverse_replicate]

theorem lookup_one : unaryDoubler.program.lookup "Q0" "1" =
    some (⟨"Q0", "1", "Q1", "X", .left⟩, 0) := rfl

theorem lookup_end : unaryDoubler.program.lookup "Q0" "b" =
    some (⟨"Q0", "b", "Q2", "b", .left⟩, 6) := rfl

theorem lookup_partner : unaryDoubler.program.lookup "Q1" "b" =
    some (⟨"Q1", "b", "Q0", "Y", .right⟩, 5) := rfl

theorem lookup_start : unaryDoubler.program.lookup "Q2" "b" =
    some (⟨"Q2", "b", "Q2", "b", .right⟩, 9) := rfl

theorem lookup_halt : unaryDoubler.program.lookup "Q2" "1" =
    some (⟨"Q2", "1", "Q2", "1", .halt⟩, 10) := rfl

theorem sweeps_back {cell : String} (h : cell = "X" ∨ cell = "Y") :
    Sweeps unaryDoubler.program "Q1" .left id cell := by
  obtain rfl | rfl := h
  · exact ⟨3, rfl⟩
  · exact ⟨4, rfl⟩

theorem sweeps_forth {cell : String} (h : cell = "X" ∨ cell = "Y") :
    Sweeps unaryDoubler.program "Q0" .right id cell := by
  obtain rfl | rfl := h
  · exact ⟨1, rfl⟩
  · exact ⟨2, rfl⟩

theorem sweeps_unmarking {cell : String} (h : cell = "X" ∨ cell = "Y") :
    Sweeps unaryDoubler.program "Q2" .left (fun _ ↦ "1") cell := by
  obtain rfl | rfl := h
  · exact ⟨7, rfl⟩
  · exact ⟨8, rfl⟩

/-- One round: the one under the head becomes an `X`, and the blank behind the marks a `Y`. -/
theorem round_moves (i : Nat) (left : List String) {rest : List String} (hrest : rest ≠ []) :
    Moves (4 * i + 3)
      (facingRight unaryDoubler.program "Q0" (marks i ++ "b" :: left) ("1" :: rest))
      (facingRight unaryDoubler.program "Q0" (marks (i + 1) ++ left) rest) := by
  have hmark : Moves 1
      (facingRight unaryDoubler.program "Q0" (marks i ++ "b" :: left) ("1" :: rest))
      (facingLeft unaryDoubler.program "Q1" (marks i ++ "b" :: left) ("X" :: rest)) :=
    .one (step_left lookup_one rfl (by simp) rest)
  have hback : Moves (2 * i)
      (facingLeft unaryDoubler.program "Q1" (marks i ++ "b" :: left) ("X" :: rest))
      (facingLeft unaryDoubler.program "Q1" ("b" :: left) ((marks i).reverse ++ "X" :: rest)) := by
    simpa only [marks_length, List.map_id] using
      sweep_left (fun c hc ↦ sweeps_back (mem_marks hc)) (List.cons_ne_nil "b" left) ("X" :: rest)
  have hpartner : Moves 1
      (facingLeft unaryDoubler.program "Q1" ("b" :: left) ((marks i).reverse ++ "X" :: rest))
      (facingRight unaryDoubler.program "Q0" ("Y" :: left) ((marks i).reverse ++ "X" :: rest)) := by
    rw [facingLeft_cons]
    exact .one (step_right lookup_partner rfl left (by simp))
  have hforth : Moves (2 * i + 1)
      (facingRight unaryDoubler.program "Q0" ("Y" :: left) ((marks i).reverse ++ "X" :: rest))
      (facingRight unaryDoubler.program "Q0" (marks (i + 1) ++ left) rest) := by
    have hword : ∀ c ∈ ("X" :: marks i).reverse, Sweeps unaryDoubler.program "Q0" .right id c := by
      intro c hc
      obtain rfl | hc := List.mem_cons.1 (List.mem_reverse.1 hc)
      · exact sweeps_forth (.inl rfl)
      · exact sweeps_forth (mem_marks hc)
    have h := sweep_right hword ("Y" :: left) hrest
    simpa [marks_succ, marks_length] using h
  have h := ((hmark.trans hback).trans hpartner).trans hforth
  have hcount : 1 + 2 * i + 1 + (2 * i + 1) = 4 * i + 3 := by omega
  rwa [hcount] at h

theorem rounds_move (i j : Nat) (left : List String) {rest : List String} (hrest : rest ≠ []) :
    Moves (2 * j ^ 2 + j + 4 * i * j)
      (facingRight unaryDoubler.program "Q0" (marks i ++ (List.replicate j "b" ++ left))
        (List.replicate j "1" ++ rest))
      (facingRight unaryDoubler.program "Q0" (marks (i + j) ++ left) rest) := by
  induction j generalizing i with
  | zero => exact .zero _
  | succ j ih =>
    -- A round leaves one more pair of marks, so the next one is four moves longer.
    have hround := round_moves i (List.replicate j "b" ++ left)
      (show List.replicate j "1" ++ rest ≠ [] by simp [hrest])
    have h := hround.trans (ih (i + 1))
    have hcount : 4 * i + 3 + (2 * j ^ 2 + j + 4 * (i + 1) * j) =
        2 * (j + 1) ^ 2 + (j + 1) + 4 * i * (j + 1) := by ring
    rw [hcount, Nat.add_right_comm i 1 j] at h
    exact h

/-- The sweep at the end, which finds the blank in front of the marks and turns there. -/
theorem unmarking_moves (n : Nat) (left right : List String) :
    Moves (2 * n + 2)
      (facingRight unaryDoubler.program "Q0" (marks n ++ "b" :: left) ("b" :: right))
      (facingRight unaryDoubler.program "Q2" ("b" :: left)
        (List.replicate (2 * n) "1" ++ "b" :: right)) := by
  have hturn : Moves 1
      (facingRight unaryDoubler.program "Q0" (marks n ++ "b" :: left) ("b" :: right))
      (facingLeft unaryDoubler.program "Q2" (marks n ++ "b" :: left) ("b" :: right)) :=
    .one (step_left lookup_end rfl (by simp) right)
  have hsweep : Moves (2 * n)
      (facingLeft unaryDoubler.program "Q2" (marks n ++ "b" :: left) ("b" :: right))
      (facingLeft unaryDoubler.program "Q2" ("b" :: left)
        (List.replicate (2 * n) "1" ++ "b" :: right)) := by
    simpa only [marks_length, marks_map_one] using
      sweep_left (fun c hc ↦ sweeps_unmarking (mem_marks hc)) (List.cons_ne_nil "b" left)
        ("b" :: right)
  have hback : Moves 1
      (facingLeft unaryDoubler.program "Q2" ("b" :: left)
        (List.replicate (2 * n) "1" ++ "b" :: right))
      (facingRight unaryDoubler.program "Q2" ("b" :: left)
        (List.replicate (2 * n) "1" ++ "b" :: right)) := by
    rw [facingLeft_cons]
    exact .one (step_right lookup_start rfl left (by simp))
  have h := (hturn.trans hsweep).trans hback
  have hcount : 1 + 2 * n + 1 = 2 * n + 2 := by omega
  rwa [hcount] at h

theorem halting_moves (n : Nat) (left right : List String) :
    Moves (2 * n ^ 2 + 3 * n + 2)
      (facingRight unaryDoubler.program "Q0" (List.replicate n "b" ++ "b" :: left)
        (List.replicate n "1" ++ "b" :: right))
      (facingRight unaryDoubler.program "Q2" ("b" :: left)
        (List.replicate (2 * n) "1" ++ "b" :: right)) := by
  have hrounds := rounds_move 0 n ("b" :: left) (List.cons_ne_nil "b" right)
  rw [Nat.zero_add] at hrounds
  have h := hrounds.trans (unmarking_moves n left right)
  have hcount : 2 * n ^ 2 + n + 4 * 0 * n + (2 * n + 2) = 2 * n ^ 2 + 3 * n + 2 := by ring
  rwa [hcount] at h

theorem step_unmarked {n : Nat} (hn : 1 ≤ n) (left right : List String) :
    (facingRight unaryDoubler.program "Q2" left (List.replicate (2 * n) "1" ++ right)).step =
      (.ok .halted, ⟨unaryDoubler.program, ⟨left.reverse ++ (List.replicate (2 * n) "1" ++ right)⟩,
        "Q2", left.length, .halted, none⟩) := by
  have hone : 2 * n = 2 * n - 1 + 1 := by omega
  rw [hone, List.replicate_succ]
  exact step_halt lookup_halt rfl left _

/-- Without a blank for every mark and one more, a sweep to the left ends at the edge. -/
theorem blocked_moves {n k : Nat} (hn : 1 ≤ n) (hk : k ≤ n) (right : List String) :
    ∃ moves m, Moves moves
        (facingRight unaryDoubler.program "Q0" (List.replicate k "b")
          (List.replicate n "1" ++ "b" :: right)) m ∧
      m.step = (.error (.offTape 0), m) := by
  obtain ⟨d, rfl⟩ := Nat.exists_eq_add_of_le hk
  have hrounds := rounds_move 0 k []
    (show List.replicate d "1" ++ "b" :: right ≠ [] by simp)
  have hsplit : List.replicate (k + d) "1" ++ "b" :: right =
      List.replicate k "1" ++ (List.replicate d "1" ++ "b" :: right) := by
    rw [← List.replicate_append_replicate, List.append_assoc]
  rw [hsplit]
  simp only [List.append_nil, Nat.zero_add] at hrounds
  cases d with
  | zero =>
    obtain ⟨moves, m, hmoves, hm⟩ := sweep_off lookup_end rfl
      (fun c hc ↦ sweeps_unmarking (mem_marks hc)) right
    exact ⟨_, m, hrounds.trans hmoves, hm⟩
  | succ d =>
    obtain ⟨moves, m, hmoves, hm⟩ := sweep_off lookup_one rfl
      (fun c hc ↦ sweeps_back (mem_marks hc)) (List.replicate d "1" ++ "b" :: right)
    exact ⟨_, m, hrounds.trans hmoves, hm⟩

theorem build_ones (n k : Nat) {p r : List String} (hp : ∀ cell ∈ p, ',' ∉ cell.toList)
    (hr : ∀ cell ∈ r, ',' ∉ cell.toList) :
    (new unaryDoubler.program).build
        (Tape.text ⟨p ++ List.replicate k "b" ++ List.replicate n "1" ++ ["b"] ++ r⟩) "Q0"
        (p.length + k + 1) =
      (.ok (), facingRight unaryDoubler.program "Q0" (List.replicate k "b" ++ p.reverse)
        (List.replicate n "1" ++ "b" :: r)) := by
  have hcells : (List.replicate k "b" ++ p.reverse).reverse ++ (List.replicate n "1" ++ "b" :: r) =
      p ++ List.replicate k "b" ++ List.replicate n "1" ++ ["b"] ++ r := by simp
  have hlength : (List.replicate k "b" ++ p.reverse).length = p.length + k := by
    simp [Nat.add_comm]
  have hplain : ∀ cell ∈ (List.replicate k "b" ++ p.reverse).reverse ++
      (List.replicate n "1" ++ "b" :: r), ',' ∉ cell.toList := by
    rw [hcells]
    simp only [List.forall_mem_append, List.forall_mem_replicate, List.forall_mem_singleton]
    exact ⟨⟨⟨⟨hp, .inr (by decide)⟩, .inr (by decide)⟩, by decide⟩, hr⟩
  rw [← hcells, ← hlength]
  exact build_facingRight _ _ (by simp) hplain

/-- For `n` ones with `n + 1` blanks in front of them and one behind, the doubler makes
`2 * n ^ 2 + 3 * n + 2` moves and halts on the first of `2 * n` ones. With no more than `n` blanks
in front it never halts, but comes to the left edge and stays there. -/
theorem unaryDoubler_run {n : Nat} (hn : 1 ≤ n) {p r : List String}
    (hp : ∀ cell ∈ p, ',' ∉ cell.toList) (hr : ∀ cell ∈ r, ',' ∉ cell.toList) :
    ∃ program, Program.ofText unaryDoubler.text = .ok program ∧
      (∃ m, (new program).build
            (Tape.text ⟨p ++ List.replicate (n + 1) "b" ++ List.replicate n "1" ++ ["b"] ++ r⟩)
            "Q0" (p.length + (n + 1) + 1) = (.ok (), m) ∧
        m.steps (2 * n ^ 2 + 3 * n + 2 + 1) =
          (List.replicate (2 * n ^ 2 + 3 * n + 2) (.ok .moved) ++ [.ok .halted],
            ⟨program, ⟨p ++ ["b"] ++ List.replicate (2 * n) "1" ++ ["b"] ++ r⟩, "Q2",
              p.length + 1, .halted, none⟩)) ∧
      ∀ k ≤ n, ∃ m, (new program).build
            (Tape.text ⟨List.replicate k "b" ++ List.replicate n "1" ++ ["b"] ++ r⟩)
            "Q0" (k + 1) = (.ok (), m) ∧
        ∃ moves, ∀ j, (m.steps (moves + j)).1 =
          List.replicate moves (.ok .moved) ++ List.replicate j (.error (.offTape 0)) := by
  refine ⟨unaryDoubler.program, unaryDoubler.ofText_text,
    ⟨_, build_ones n (n + 1) hp hr, ?_⟩, fun k hk ↦ ?_⟩
  · have hmoves := halting_moves n p.reverse r
    rw [List.replicate_succ', List.append_assoc, List.singleton_append, hmoves.steps_add]
    simp [steps, step_unmarked hn]
  · have hbuild := build_ones n k (List.forall_mem_nil _) hr
    rw [List.nil_append, List.length_nil, Nat.zero_add] at hbuild
    obtain ⟨moves, m, hmoves, hm⟩ := blocked_moves hn hk r
    refine ⟨_, hbuild, moves, fun j ↦ ?_⟩
    rw [List.reverse_nil, List.append_nil, hmoves.steps_add, steps_of_fixed hm]

theorem unaryDoubler_run_two : 1 ≤ 2 ∧ (∀ cell ∈ ["x", ""], ',' ∉ cell.toList) ∧
    ∃ program, Program.ofText unaryDoubler.text = .ok program ∧
      (∃ m, (new program).build "x,,b,b,b,1,1,b,x," "Q0" 6 = (.ok (), m) ∧
        m.steps 17 = (List.replicate 16 (.ok .moved) ++ [.ok .halted],
          ⟨program, ⟨["x", "", "b", "1", "1", "1", "1", "b", "x", ""]⟩, "Q2", 3, .halted,
            none⟩)) ∧
      ∃ m, (new program).build "b,1,1,b,x," "Q0" 2 = (.ok (), m) ∧
        ∃ moves, ∀ j, (m.steps (moves + j)).1 =
          List.replicate moves (.ok .moved) ++ List.replicate j (.error (.offTape 0)) := by
  have hplain : ∀ cell ∈ ["x", ""], ',' ∉ cell.toList := by decide
  obtain ⟨program, hprogram, ⟨m, hbuild, hsteps⟩, hblocked⟩ :=
    unaryDoubler_run (n := 2) (by decide) hplain hplain
  obtain ⟨m', hbuild', hsteps'⟩ := hblocked 1 (by decide)
  exact ⟨by decide, hplain, program, hprogram, ⟨m, hbuild, hsteps⟩, m', hbuild', hsteps'⟩

end OneTape.Preset
