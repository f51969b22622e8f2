import Mathlib.Data.List.Forall2
import OneTape.Text.Basic

namespace OneTape.Text

/-- A text that a line feed can be put behind without taking anything away from it. -/
structure IsLine (s : List Char) : Prop where
  feed : '\n' ∉ s
  ending : s.getLast? ≠ some '\r'

variable {c : Char} {s line rest : List Char} {ls : List (List Char)}

@[simp]
theorem lines_feed : lines ('\n' :: s) = [] :: lines s := rfl

theorem lines_cons (hc : c ≠ '\n') (hs : ∀ t, c = '\r' → s ≠ '\n' :: t) :
    lines (c :: s) = match lines s with
      | [] => [[c]]
      | line :: more => (c :: line) :: more :=
  lines.eq_4 c s hc hs

theorem lines_of_not_mem (h : '\n' ∉ line) (hne : line ≠ []) : lines line = [line] := by
  induction line with
  | nil => exact absurd rfl hne
  | cons c line ih =>
    simp only [List.mem_cons, not_or] at h
    have hs : ∀ t, c = '\r' → line ≠ '\n' :: t := by
      rintro t - rfl
      simp at h
    rw [lines_cons (Ne.symm h.1) hs]
    cases line with
    | nil => rfl
    | cons d line => rw [ih h.2 (List.cons_ne_nil d line)]

theorem IsLine.nil : IsLine [] := ⟨List.not_mem_nil, by simp⟩

theorem IsLine.tail (h : IsLine (c :: line)) : IsLine line := by
  refine ⟨fun hm ↦ h.feed (List.mem_cons_of_mem c hm), fun he ↦ h.ending ?_⟩
  rw [List.getLast?_cons, he, Option.getD_some]

theorem lines_line (h : IsLine line) : lines (line ++ '\n' :: rest) = line :: lines rest := by
  induction line with
  | nil => rfl
  | cons c line ih =>
    have hc : c ≠ '\n' := fun hc ↦ h.feed (hc ▸ List.mem_cons_self)
    have hs : ∀ t, c = '\r' → line ++ '\n' :: rest ≠ '\n' :: t := by
      rintro t rfl ht
      cases line with
      | nil => exact h.ending rfl
      | cons d line =>
        rw [List.cons_append, List.cons.injEq] at ht
        exact h.tail.feed (ht.1 ▸ List.mem_cons_self)
    rw [List.cons_append, lines_cons hc hs, ih h.tail]

theorem lines_line_return (h : '\n' ∉ line) :
    lines (line ++ '\r' :: '\n' :: rest) = line :: lines rest := by
  induction line with
  | nil => rfl
  | cons c line ih =>
    simp only [List.mem_cons, not_or] at h
    have hs : ∀ t, c = '\r' → line ++ '\r' :: '\n' :: rest ≠ '\n' :: t := by
      rintro t - ht
      cases line with
      | nil => cases ht
      | cons d line =>
        rw [List.cons_append, List.cons.injEq] at ht
        exact h.2 (ht.1 ▸ List.mem_cons_self)
    rw [List.cons_append, lines_cons (Ne.symm h.1) hs, ih h.2]

def chomp (line : List Char) : List Char :=
  if line.getLast? = some '\r' then line.dropLast else line

theorem lines_chomp (h : '\n' ∉ line) (rest : List Char) :
    lines (line ++ '\n' :: rest) = chomp line :: lines rest := by
  by_cases hlast : line.getLast? = some '\r'
  · obtain ⟨piece, rfl⟩ := List.getLast?_eq_some_iff.1 hlast
    have hpiece : '\n' ∉ piece := fun hm ↦ h (List.mem_append_left _ hm)
    rw [chomp, if_pos hlast, List.dropLast_concat, List.append_assoc, List.singleton_append,
      lines_line_return hpiece]
  · rw [chomp, if_neg hlast, lines_line ⟨h, hlast⟩]

def Chomped (line piece : List Char) : Prop := line = piece ∨ line = piece ++ ['\r']

theorem chomped_chomp (line : List Char) : Chomped line (chomp line) := by
  unfold chomp
  split
  · rename_i hlast
    obtain ⟨piece, rfl⟩ := List.getLast?_eq_some_iff.1 hlast
    exact .inr (by rw [List.dropLast_concat])
  · exact .inl rfl

theorem mem_of_mem_chomp (h : c ∈ chomp line) : c ∈ line := by
  obtain he | he := chomped_chomp line
  · exact he ▸ h
  · exact he ▸ List.mem_append_left _ h

theorem lines_joined (hne : ls ≠ []) (h : ∀ line ∈ ls, '\n' ∉ line ∧ line ≠ []) :
    List.Forall₂ Chomped ls (lines (['\n'].intercalate ls)) := by
  induction ls with
  | nil => exact absurd rfl hne
  | cons line ls ih =>
    obtain ⟨hline, hmore⟩ := List.forall_mem_cons.1 h
    cases ls with
    | nil =>
      rw [List.intercalate_singleton, lines_of_not_mem hline.1 hline.2]
      exact .cons (.inl rfl) .nil
    | cons next ls =>
      rw [List.intercalate_cons_cons, List.append_assoc, List.singleton_append,
        lines_chomp hline.1]
      exact .cons (chomped_chomp line) (ih (List.cons_ne_nil next ls) hmore)

theorem lines_feeds (h : ∀ line ∈ ls, '\n' ∉ line) (rest : List Char) :
    lines (ls.flatMap (· ++ ['\n']) ++ rest) = ls.map chomp ++ lines rest := by
  induction ls with
  | nil => rfl
  | cons line ls ih =>
    obtain ⟨hline, hls⟩ := List.forall_mem_cons.1 h
    rw [List.flatMap_cons, List.append_assoc, List.append_assoc, List.singleton_append,
      lines_chomp hline, ih hls, List.map_cons, List.cons_append]

theorem lines_ended (h : ∀ line ∈ ls, IsLine line) (rest : List Char) :
    lines (ls.flatMap (· ++ ['\n']) ++ rest) = ls ++ lines rest := by
  have hchomp : ∀ line ∈ ls, chomp line = line := fun line hl ↦ if_neg (h line hl).ending
  rw [lines_feeds (fun line hl ↦ (h line hl).feed), List.map_congr_left hchomp, List.map_id']

theorem intercalate_feed (ls : List (List Char)) (last : List Char) :
    ['\n'].intercalate (ls ++ [last]) = ls.flatMap (· ++ ['\n']) ++ last := by
  induction ls with
  | nil => simp
  | cons line ls ih =>
    obtain ⟨l, more, hl⟩ := List.exists_cons_of_ne_nil (show ls ++ [last] ≠ [] by simp)
    rw [List.cons_append, hl, List.intercalate_cons_cons, ← hl, ih]
    simp

theorem not_mem_of_mem_splitOn {piece : List Char} (h : piece ∈ s.splitOn c) : c ∉ piece := by
  induction s generalizing piece with
  | nil =>
    rw [List.splitOn_nil, List.mem_singleton] at h
    exact h ▸ List.not_mem_nil
  | cons d s ih =>
    rw [List.splitOn_cons_eq_if_modifyHead] at h
    split at h
    · obtain rfl | h := List.mem_cons.1 h
      · exact List.not_mem_nil
      · exact ih h
    · rename_i hd
      obtain ⟨first, rest, hs⟩ := List.exists_cons_of_ne_nil (List.splitOn_ne_nil c s)
      rw [hs, List.modifyHead_cons] at h
      rw [hs] at ih
      obtain rfl | h := List.mem_cons.1 h
      · have hne : c ≠ d := fun he ↦ hd (by simp [he])
        exact List.not_mem_cons_of_ne_of_not_mem hne (ih List.mem_cons_self)
      · exact ih (List.mem_cons_of_mem first h)

theorem length_splitOn (c : Char) (s : List Char) : (s.splitOn c).length = s.count c + 1 := by
  induction s with
  | nil => rfl
  | cons d s ih =>
    rw [List.splitOn_cons_eq_if_modifyHead]
    split
    · rename_i hd
      rw [beq_iff_eq.1 hd, List.count_cons_self, List.length_cons, ih]
    · rename_i hd
      rw [List.length_modifyHead, ih, List.count_cons_of_ne (by simpa using hd)]

theorem count_intercalate (c : Char) (piece : List Char) (pieces : List (List Char)) :
    ([c].intercalate (piece :: pieces)).count c =
      (piece :: pieces).flatten.count c + pieces.length := by
  induction pieces generalizing piece with
  | nil => simp
  | cons next pieces ih =>
    have hflatten : (piece :: next :: pieces).flatten = piece ++ (next :: pieces).flatten := rfl
    rw [List.intercalate_cons_cons, List.count_append, List.count_append, ih,
      List.count_singleton_self, hflatten, List.count_append, List.length_cons]
    omega

/-- A text falls into its lines at the line feeds. The part behind the last line feed is a line as
it stands, if there is anything in it. -/
theorem lines_split (s : List Char) :
    ∃ pieces last, s.splitOn '\n' = pieces ++ [last] ∧ (∀ line ∈ pieces ++ [last], '\n' ∉ line) ∧
      lines s = pieces.map chomp ++ if last = [] then [] else [last] := by
  obtain ⟨pieces, last, hsplit⟩ :=
    (List.eq_nil_or_concat' (s.splitOn '\n')).resolve_left (List.splitOn_ne_nil '\n' s)
  have hfeed : ∀ line ∈ pieces ++ [last], '\n' ∉ line := by
    intro line hline
    exact not_mem_of_mem_splitOn (hsplit ▸ hline)
  obtain ⟨hpieces, hlast⟩ := List.forall_mem_append.1 hfeed
  have hs : s = pieces.flatMap (· ++ ['\n']) ++ last := by
    rw [← intercalate_feed, ← hsplit, List.intercalate_splitOn]
  refine ⟨pieces, last, hsplit, hfeed, ?_⟩
  rw [hs, lines_feeds hpieces]
  split
  · rename_i hnil
    rw [hnil, lines]
  · rename_i hne
    rw [lines_of_not_mem (hlast last (List.mem_singleton_self last)) hne]

theorem not_mem_of_mem_lines (h : line ∈ lines s) : '\n' ∉ line := by
  obtain ⟨pieces, last, -, hfeed, hlines⟩ := lines_split s
  rw [hlines, List.mem_append, List.mem_map] at h
  obtain ⟨piece, hpiece, rfl⟩ | h := h
  · intro hm
    exact hfeed piece (List.mem_append_left _ hpiece) (mem_of_mem_chomp hm)
  · split at h
    · cases h
    · exact hfeed line (List.mem_append_right _ h)

end OneTape.Text
