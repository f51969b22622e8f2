import OneTape.Proofs.Text.Lines
import OneTape.Tape

namespace OneTape.Tape

theorem comma_of_ofText {text cell : String} (h : cell ∈ (ofText text).cells) :
    ',' ∉ cell.toList := by
  obtain ⟨piece, hpiece, rfl⟩ := List.mem_map.1 h
  rw [String.toList_ofList]
  exact Text.not_mem_of_mem_splitOn hpiece

theorem toList_text (t : Tape) : t.text.toList = [','].intercalate (t.cells.map String.toList) := by
  rw [text, String.toList_intercalate]
  rfl

theorem map_toList_ofText (text : String) :
    (ofText text).cells.map String.toList = text.toList.splitOn ',' := by
  simp [ofText, Function.comp_def]

theorem ofText_text {t : Tape} (h : t.cells ≠ []) (hc : ∀ cell ∈ t.cells, ',' ∉ cell.toList) :
    ofText t.text = t := by
  have hsplit : t.text.toList.splitOn ',' = t.cells.map String.toList := by
    rw [toList_text]
    refine List.splitOn_intercalate ',' (fun cell hcell ↦ ?_) (by simpa using h)
    obtain ⟨c, hmem, rfl⟩ := List.mem_map.1 hcell
    exact hc c hmem
  rw [ofText, hsplit, List.map_map]
  simp [Function.comp_def]

theorem text_ofText (text : String) : (ofText text).text = text := by
  rw [← String.toList_inj, toList_text, map_toList_ofText]
  exact List.intercalate_splitOn ','

theorem size_ofText (text : String) : (ofText text).size = text.toList.count ',' + 1 := by
  rw [size, ofText, List.length_map, Text.length_splitOn]

theorem cells_ofText_ne_nil (text : String) : (ofText text).cells ≠ [] :=
  List.ne_nil_of_length_pos (by rw [← size, size_ofText]; exact Nat.succ_pos _)

theorem ofText_text_iff {t : Tape} :
    ofText t.text = t ↔ t.cells ≠ [] ∧ ∀ cell ∈ t.cells, ',' ∉ cell.toList := by
  refine ⟨fun h ↦ ?_, fun ⟨h, hc⟩ ↦ ofText_text h hc⟩
  rw [← h]
  exact ⟨cells_ofText_ne_nil t.text, fun _ ↦ comma_of_ofText⟩

theorem size_ofText_text (cell : String) (cells : List String) :
    (ofText (text ⟨cell :: cells⟩)).size =
      size ⟨cell :: cells⟩ + ((cell :: cells).flatMap String.toList).count ',' := by
  rw [size_ofText, toList_text, List.map_cons, Text.count_intercalate, ← List.map_cons,
    ← List.flatMap_def, List.length_map, size, List.length_cons]
  omega

/-- A text is read as a tape of one cell more than it has commas, which has that text. A tape is
read back from its text just when it has a cell and no cell has a comma; of a tape with cells as
many more are read as there are commas in them. -/
theorem text_round_trip :
    (∀ raw, (ofText raw).text = raw ∧ (ofText raw).size = raw.toList.count ',' + 1) ∧
    (∀ t, ofText t.text = t ↔ t.cells ≠ [] ∧ ∀ cell ∈ t.cells, ',' ∉ cell.toList) ∧
    ∀ cell cells, (ofText (text ⟨cell :: cells⟩)).size =
      size ⟨cell :: cells⟩ + ((cell :: cells).flatMap String.toList).count ',' :=
  ⟨fun raw ↦ ⟨text_ofText raw, size_ofText raw⟩, fun _ ↦ ofText_text_iff, size_ofText_text⟩

example : ofText (text ⟨["a,", ""]⟩) = ⟨["a", "", ""]⟩ := by decide

end OneTape.Tape
