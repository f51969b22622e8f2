import OneTape.Proofs.Command.Watch
import OneTape.Proofs.Snapshot
import OneTape.Proofs.Text.Lines

namespace OneTape

open Json Text

theorem Json.Printable.isLine {s : List Char} (h : Printable s) : IsLine s := by
  refine ⟨fun hm ↦ absurd (h _ hm) (by decide), fun he ↦ ?_⟩
  exact absurd (h _ (List.mem_of_getLast? he)) (by decide)

namespace Command

open Machine

variable {o : Options} {m : Machine}

theorem toList_unlines (lines : List String) :
    (unlines lines).toList = (lines.map String.toList).flatMap (· ++ ['\n']) := by
  simp [unlines, String.toList_join, List.flatMap_map]

theorem unlines_append (lines more : List String) :
    unlines (lines ++ more) = unlines lines ++ unlines more := by
  rw [← String.toList_inj]
  simp [toList_unlines]

theorem shown_json (hj : o.json = true) (m : Machine) :
    shown o m = if o.json then [m.snapshot.toJson] else [] := by
  simp [shown, hj]

def closingText (o : Options) (m : Machine) : Ending → String
  | .failed _ => ""
  | ending => unlines (closing o ending m)

theorem output_course (hj : o.json = true) {last : Nat} {ending : Ending}
    (h : m.Course o.maxSteps last ending) :
    (watch o m).output = unlines (snapshots o m last) ++ closingText o (m.steps last).2 ending := by
  have hlines : ((m.passed last).foldl (collect o) (shown o m).reverse).reverse =
      snapshots o m last := by
    rw [reverse_collect, List.reverse_reverse, snapshots_of_shown (shown_json hj)]
  rw [watch_eq, follow_course h]
  simp only [conclude, hlines]
  cases h with
  | limit | halted | skipped => exact unlines_append _ _
  | failed => simp [closingText]

theorem lines_snapshots (o : Options) (m : Machine) (last : Nat) (rest : List Char) :
    lines ((unlines (snapshots o m last)).toList ++ rest) =
      (snapshots o m last).map String.toList ++ lines rest := by
  rw [toList_unlines]
  refine lines_ended (fun line hline ↦ ?_) rest
  obtain ⟨text, htext, rfl⟩ := List.mem_map.1 hline
  unfold snapshots at htext
  split at htext
  · obtain ⟨i, -, rfl⟩ := List.mem_map.1 htext
    exact (Snapshot.printable_toJson _).isLine
  · cases htext

def Starts (o : Options) (input : Option ByteArray) (m : Machine) : Prop :=
  ∃ program base config, job o input = .ok (program, base) ∧ configure o base = .ok config ∧
    (new program).buildFrom config = (.ok (), m)

theorem run_of_starts {input : Option ByteArray} (hl : o.listPresets = false)
    (h : Starts o input m) : run o input = watch o m := by
  obtain ⟨program, base, config, hj, hc, hb⟩ := h
  exact run_eq_watch hb hl hj hc

theorem output_of_not_starts {input : Option ByteArray} (hl : o.listPresets = false)
    (h : ∀ m, ¬ Starts o input m) : (run o input).output = "" := by
  cases hj : job o input with
  | error report => simp [run, hl, hj, bind, Except.bind]
  | ok found =>
    obtain ⟨program, base⟩ := found
    cases hc : configure o base with
    | error e => simp [run, hl, hj, hc, bind, Except.bind, Except.mapError]
    | ok config =>
      obtain ⟨reply, m, hb⟩ : ∃ reply m, (new program).buildFrom config = (reply, m) := ⟨_, _, rfl⟩
      cases reply with
      | error e => simp [run, hl, hj, hc, start, hb, bind, Except.bind, Except.mapError]
      | ok => exact absurd ⟨program, base, config, hj, hc, hb⟩ (h m)

/-- The text of a snapshot is that of no other snapshot and has no control characters. So what the
command prints with the option for snapshots falls into lines of which each is one snapshot: that of
the machine as it is built, and one of the machine behind every rule that is carried out. -/
theorem snapshot_on_each_line :
    (∀ a b : Snapshot, a.toJson = b.toJson → a = b) ∧
    (∀ s : Snapshot, ∀ c ∈ s.toJson.toList, 0x20 ≤ c.toNat) ∧
    ∀ o input, o.json = true → o.listPresets = false →
      (∀ m, Starts o input m → ∃ last ending, m.Course o.maxSteps last ending ∧
        lines (run o input).output.toList =
          ((List.range (last + 1)).map fun i ↦ (m.steps i).2.snapshot.toJson.toList) ++
            lines (closingText o (m.steps last).2 ending).toList) ∧
      ((∀ m, ¬ Starts o input m) → (run o input).output = "") := by
  refine ⟨fun _ _ ↦ Snapshot.toJson_injective, Snapshot.printable_toJson, fun o input hj hl ↦
    ⟨fun m hm ↦ ?_, output_of_not_starts hl⟩⟩
  obtain ⟨last, ending, hcourse⟩ := m.exists_course o.maxSteps
  refine ⟨last, ending, hcourse, ?_⟩
  rw [run_of_starts hl hm, output_course hj hcourse, String.toList_append, lines_snapshots,
    snapshots, if_pos hj, List.map_map]
  rfl

/-- A cell with a line feed and a quote: the text of the tape falls apart, its snapshots do not. -/
theorem snapshot_on_each_line_feed :
    let program : Program := .ofRules [⟨"A", "0", "B", "1", .halt⟩]
    let m : Machine := ⟨program, ⟨["0", "\n\""]⟩, "A", 0, .started, some 0⟩
    let o : Options :=
      ⟨some "0,\n\"", some "A", some "1", ["A 0 : B 1 H"], none, false, true, true, 2⟩
    o.json = true ∧ o.listPresets = false ∧ Starts o none m ∧
    ∃ last ending, m.Course 2 last ending ∧
      lines (run o none).output.toList =
        ((List.range (last + 1)).map fun i ↦ (m.steps i).2.snapshot.toJson.toList) ++
          lines (closingText o (m.steps last).2 ending).toList := by
  intro program m o
  have hstarts : Starts o none m := ⟨program, .standard, ⟨"0,\n\"", "A", 1⟩, rfl, rfl, rfl⟩
  obtain ⟨hlines, -⟩ := snapshot_on_each_line.2.2 o none rfl rfl
  exact ⟨rfl, rfl, hstarts, hlines m hstarts⟩

end Command

end OneTape
