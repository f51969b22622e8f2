import OneTape.Command.Run
import OneTape.Proofs.Machine.Course

namespace OneTape.Command

open Machine

variable {o : Options} {m m' : Machine}

theorem shown_plain (hd : o.debug = false) (m : Machine) :
    shown o m = if o.json then [m.snapshot.toJson] else [] := by
  simp [shown, hd]

theorem closing_plain (hd : o.debug = false) (ending : Ending) (m : Machine) :
    closing o ending m = [m.tape.text] := by
  simp [closing, hd]

theorem Report.text_of_no_cause {e : Error} (h : e.cause? = none) :
    (Report.ofError e).text = "Error: " ++ e.message ++ "\n" := by
  simp [Report.ofError, Report.text, Report.causesText, h]

def snapshots (o : Options) (m : Machine) (last : Nat) : List String :=
  if o.json then (List.range (last + 1)).map fun i ↦ (m.steps i).2.snapshot.toJson else []

theorem snapshots_isPrefix (o : Options) (m : Machine) {last last' : Nat} (h : last ≤ last') :
    snapshots o m last <+: snapshots o m last' := by
  obtain ⟨d, rfl⟩ := Nat.exists_eq_add_of_le h
  unfold snapshots
  split
  · have hrange : List.range (last + d + 1) =
        List.range (last + 1) ++ (List.range d).map (last + 1 + ·) := by
      rw [Nat.add_right_comm]
      exact List.range_add
    rw [hrange, List.map_append]
    exact List.prefix_append _ _
  · exact List.prefix_rfl

theorem cons_passed (m : Machine) (n : Nat) :
    m :: m.passed n = (List.range (n + 1)).map fun i ↦ (m.steps i).2 := by
  rw [List.range_succ_eq_map, List.map_cons, List.map_map]
  rfl

theorem snapshots_of_shown (hs : ∀ m, shown o m = if o.json then [m.snapshot.toJson] else [])
    (m : Machine) (n : Nat) : shown o m ++ (m.passed n).flatMap (shown o) = snapshots o m n := by
  rw [← List.flatMap_cons, cons_passed, List.flatMap_map, snapshots]
  simp only [hs]
  split
  · exact List.map_eq_flatMap.symm
  · exact List.flatMap_eq_nil_iff.2 fun _ _ ↦ rfl

theorem shown_passed (hd : o.debug = false) (m : Machine) (n : Nat) :
    shown o m ++ (m.passed n).flatMap (shown o) = snapshots o m n :=
  snapshots_of_shown (shown_plain hd) m n

def collect (o : Options) (lines : List String) (m : Machine) : List String :=
  (shown o m).reverse ++ lines

def conclude (o : Options) (result : List String × Ending × Machine) : Transcript :=
  match result.2.1 with
  | .failed e => ⟨1, unlines result.1.reverse, (Report.ofError e).text⟩
  | ending => ⟨0, unlines (result.1.reverse ++ closing o ending result.2.2), ""⟩

theorem watch_eq (o : Options) (m : Machine) :
    watch o m = conclude o (follow (collect o) o.maxSteps (shown o m).reverse m) := rfl

theorem reverse_collect (o : Options) (lines : List String) (ms : List Machine) :
    (ms.foldl (collect o) lines).reverse = lines.reverse ++ ms.flatMap (shown o) := by
  induction ms generalizing lines with
  | nil => simp
  | cons m ms ih => simp [ih, collect]

/-- The loop as it is entered with some steps made and some lines shown: it looks at the limit,
makes a step, and leaves off or turns once more. It tells how many steps it makes from there. -/
inductive Loops (o : Options) : (made : Nat) → List String → Machine → (calls : Nat) →
    Transcript → Prop where
  | limit (lines : List String) (m : Machine) :
      Loops o o.maxSteps lines m 0 ⟨0, unlines (lines ++ closing o .limit m), ""⟩
  | moved {made calls : Nat} {lines : List String} {m m' : Machine} {t : Transcript}
      (hn : made ≠ o.maxSteps) (hs : m.step = (.ok .moved, m'))
      (h : Loops o (made + 1) (lines ++ shown o m') m' calls t) :
      Loops o made lines m (calls + 1) t
  | halted {made : Nat} (lines : List String) {m m' : Machine}
      (hn : made ≠ o.maxSteps) (hs : m.step = (.ok .halted, m')) :
      Loops o made lines m 1 ⟨0, unlines (lines ++ shown o m' ++ closing o .halted m'), ""⟩
  | skipped {made : Nat} (lines : List String) {m m' : Machine}
      (hn : made ≠ o.maxSteps) (hs : m.step = (.ok .skipped, m')) :
      Loops o made lines m 1 ⟨0, unlines (lines ++ closing o .skipped m'), ""⟩
  | failed {made : Nat} (lines : List String) {m m' : Machine} {e : Error}
      (hn : made ≠ o.maxSteps) (hs : m.step = (.error e, m')) :
      Loops o made lines m 1 ⟨1, unlines lines, (Report.ofError e).text⟩

theorem Loops.unique {made calls calls' : Nat} {lines : List String} {t t' : Transcript}
    (h : Loops o made lines m calls t) (h' : Loops o made lines m calls' t') :
    calls' = calls ∧ t' = t := by
  induction h generalizing calls' with
  | limit =>
    cases h' with
    | limit => exact ⟨rfl, rfl⟩
    | moved hn | halted _ hn | skipped _ hn | failed _ hn => exact absurd rfl hn
  | moved hn hs _ ih =>
    cases h' with
    | limit => exact absurd rfl hn
    | moved _ hs' h' =>
      cases hs.symm.trans hs'
      obtain ⟨rfl, ht⟩ := ih h'
      exact ⟨rfl, ht⟩
    | halted _ _ hs' | skipped _ _ hs' | failed _ _ hs' => cases hs.symm.trans hs'
  | halted _ hn hs =>
    cases h' with
    | limit => exact absurd rfl hn
    | halted _ _ hs' =>
      cases hs.symm.trans hs'
      exact ⟨rfl, rfl⟩
    | moved _ hs' | skipped _ _ hs' | failed _ _ hs' => cases hs.symm.trans hs'
  | skipped _ hn hs =>
    cases h' with
    | limit => exact absurd rfl hn
    | skipped _ _ hs' =>
      cases hs.symm.trans hs'
      exact ⟨rfl, rfl⟩
    | moved _ hs' | halted _ _ hs' | failed _ _ hs' => cases hs.symm.trans hs'
  | failed _ hn hs =>
    cases h' with
    | limit => exact absurd rfl hn
    | failed _ _ hs' =>
      cases hs.symm.trans hs'
      exact ⟨rfl, rfl⟩
    | moved _ hs' | halted _ _ hs' | skipped _ _ hs' => cases hs.symm.trans hs'

theorem exists_loops (k : Nat) {made : Nat} (hk : made + k = o.maxSteps) (lines : List String)
    (m : Machine) : ∃ calls ≤ k,
      Loops o made lines m calls (conclude o (follow (collect o) k lines.reverse m)) := by
  -- The loop counts up to the limit and the run counts down, so the induction is on what is left.
  induction k generalizing made lines m with
  | zero =>
    obtain rfl : made = o.maxSteps := hk
    refine ⟨0, Nat.le_refl 0, ?_⟩
    simpa only [follow, conclude, List.reverse_reverse] using Loops.limit lines m
  | succ k ih =>
    have hn : made ≠ o.maxSteps := by omega
    have hone : 1 ≤ k + 1 := Nat.succ_le_succ (Nat.zero_le k)
    obtain ⟨answer, m', hs⟩ : ∃ answer m', m.step = (answer, m') := ⟨_, _, rfl⟩
    rw [follow, hs]
    cases answer with
    | ok outcome =>
      cases outcome with
      | moved =>
        have hnext : made + 1 + k = o.maxSteps := by omega
        obtain ⟨calls, hcalls, h⟩ := ih hnext (lines ++ shown o m') m'
        rw [List.reverse_append] at h
        exact ⟨calls + 1, Nat.succ_le_succ hcalls, .moved hn hs h⟩
      | halted =>
        refine ⟨1, hone, ?_⟩
        simpa [conclude, collect] using Loops.halted lines hn hs
      | skipped =>
        refine ⟨1, hone, ?_⟩
        simpa [conclude] using Loops.skipped lines hn hs
    | error e =>
      refine ⟨1, hone, ?_⟩
      simpa [conclude] using Loops.failed lines hn hs

/-- The loop ends, in one way, and makes no more steps than it may. -/
theorem loops_watch (o : Options) (m : Machine) : ∃ calls ≤ o.maxSteps, ∀ calls' t,
    Loops o 0 (shown o m) m calls' t ↔ calls' = calls ∧ t = watch o m := by
  obtain ⟨calls, hcalls, h⟩ := exists_loops o.maxSteps (Nat.zero_add _) (shown o m) m
  refine ⟨calls, hcalls, fun calls' t ↦ ⟨h.unique, ?_⟩⟩
  rintro ⟨rfl, rfl⟩
  exact h

def printed (o : Options) (m : Machine) (last : Nat) : Ending → Transcript
  | .failed e => ⟨1, unlines (snapshots o m last), "Error: " ++ e.message ++ "\n"⟩
  | _ => ⟨0, unlines (snapshots o m last ++ [(m.steps last).2.tape.text]), ""⟩

theorem watch_course (hd : o.debug = false) {last : Nat} {ending : Ending}
    (h : m.Course o.maxSteps last ending) : watch o m = printed o m last ending := by
  have hlines : ((m.passed last).foldl (collect o) (shown o m).reverse).reverse =
      snapshots o m last := by
    rw [reverse_collect, List.reverse_reverse, shown_passed hd]
  rw [watch_eq, follow_course h]
  simp only [conclude, hlines]
  cases h with
  | limit | halted | skipped => simp only [closing_plain hd, printed]
  | @failed _ position =>
    have hcause : (Error.offTape position).cause? = none := rfl
    simp only [Report.text_of_no_cause hcause, printed]

theorem run_eq_watch {program : Program} {config base : Config} {input : Option ByteArray}
    (hb : (new program).buildFrom config = (.ok (), m)) (hl : o.listPresets = false)
    (hj : job o input = .ok (program, base)) (hc : configure o base = .ok config) :
    run o input = watch o m := by
  have hstart : start program config = .ok m := by simp only [start, hb]
  have hconfig : (configure o base).mapError Report.ofError = .ok config := by rw [hc]; rfl
  simp [run, hl, hj, hconfig, hstart, bind, Except.bind]

/-- A machine that is built from a configuration runs on one course within any limit, and the
command shows the machines on it and then the tape at its end; where the run fails it shows no
tape, but the error. Without the option for snapshots only the tape is left. The loop makes no more
steps than it may, and with a larger limit the same snapshots come first. -/
theorem watch_built {program : Program} {config : Config}
    (hb : (new program).buildFrom config = (.ok (), m)) (hd : o.debug = false) :
    (∃ last ending, m.Course o.maxSteps last ending) ∧
    (∀ last ending, m.Course o.maxSteps last ending → watch o m = printed o m last ending) ∧
    (∃ calls ≤ o.maxSteps, ∀ calls' t,
      Loops o 0 (shown o m) m calls' t ↔ calls' = calls ∧ t = watch o m) ∧
    (∀ limit limit' last last' ending ending', limit ≤ limit' →
      m.Course limit last ending → m.Course limit' last' ending' →
        snapshots o m last <+: snapshots o m last') ∧
    ∀ input base, o.listPresets = false → job o input = .ok (program, base) →
      configure o base = .ok config → run o input = watch o m := by
  exact ⟨m.exists_course o.maxSteps, fun last ending ↦ watch_course hd, loops_watch o m,
    fun limit limit' last last' ending ending' hle h h' ↦ snapshots_isPrefix o m (h.mono h' hle),
    fun input base ↦ run_eq_watch hb⟩

theorem watch_built_end :
    let program : Program := .ofRules [⟨"A", "0", "A", "1", .right⟩]
    let m : Machine := ⟨program, ⟨["0", "0"]⟩, "A", 0, .started, some 0⟩
    let o : Options :=
      ⟨some "0,0", some "A", some "1", ["A 0 : A 1 R"], none, false, false, true, 2⟩
    (new program).buildFrom ⟨"0,0", "A", 1⟩ = (.ok (), m) ∧ o.debug = false ∧
    m.Course 2 1 (.failed (.offTape 1)) ∧
    run o none =
      ⟨1,
        "\x7b\"state\":\"A\",\"tape\":[\"0\",\"0\"],\"head\":0,\"active_rule\":0," ++
          "\"running\":\"Started\"\x7d\n" ++
        "\x7b\"state\":\"A\",\"tape\":[\"1\",\"0\"],\"head\":1,\"active_rule\":0," ++
          "\"running\":\"Started\"\x7d\n",
        "Error: Tape boundary exceeded at position 1\n"⟩ := by
  intro program m o
  have hb : (new program).buildFrom ⟨"0,0", "A", 1⟩ = (.ok (), m) := rfl
  have hcourse : m.Course 2 1 (.failed (.offTape 1)) :=
    .failed (by decide) (Nat.forall_lt_succ_right.2 ⟨by simp, rfl⟩) rfl
  obtain ⟨-, hprinted, -, -, hrun⟩ := watch_built (o := o) hb rfl
  have hjob : job o none = .ok (program, .standard) := rfl
  have hconfig : configure o .standard = .ok ⟨"0,0", "A", 1⟩ := rfl
  refine ⟨hb, rfl, hcourse, (hrun none .standard rfl hjob hconfig).trans ?_⟩
  refine (hprinted 1 _ hcourse).trans ?_
  dsimp only [program, m, o]
  decide +kernel

end OneTape.Command
