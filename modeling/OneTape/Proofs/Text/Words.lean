import Mathlib.Data.List.TakeWhile
import OneTape.Text.Basic

namespace OneTape

variable {ε α β : Type}

theorem bind_ok_iff {x : Except ε α} {f : α → Except ε β} {b : β} :
    (x >>= f) = .ok b ↔ ∃ a, x = .ok a ∧ f a = .ok b := by
  cases x <;> simp [bind, Except.bind]

theorem bind_error_iff {x : Except ε α} {f : α → Except ε β} {e : ε} :
    (x >>= f) = .error e ↔ x = .error e ∨ ∃ a, x = .ok a ∧ f a = .error e := by
  cases x <;> simp [bind, Except.bind]

theorem map_ok_iff {x : Except ε α} {f : α → β} {b : β} :
    x.map f = .ok b ↔ ∃ a, x = .ok a ∧ f a = b := by
  cases x <;> simp [Except.map]

end OneTape

namespace OneTape.Text

/-- No run of characters with `p` goes on into the text. -/
def Breaks (p : Char → Bool) (s : List Char) : Prop := ∀ c ∈ s.head?, p c = false

section Runs

variable {p : Char → Bool} {s run rest : List Char}

@[simp]
theorem breaks_nil : Breaks p [] := by simp [Breaks]

@[simp]
theorem breaks_cons {c : Char} : Breaks p (c :: s) ↔ p c = false := by simp [Breaks]

theorem breaks_dropWhile : Breaks p (s.dropWhile p) := by
  intro c hc
  have h := List.head?_dropWhile_not p s
  rw [Option.mem_def.1 hc] at h
  exact h

theorem dropWhile_of_breaks (h : Breaks p s) : s.dropWhile p = s := by
  cases s with
  | nil => rfl
  | cons c s => exact List.dropWhile_cons_of_neg (by simp [breaks_cons.1 h])

theorem breaks_append (h : ∀ c ∈ run, p c = false) (hs : Breaks p rest) :
    Breaks p (run ++ rest) := by
  cases run with
  | nil => exact hs
  | cons c run => exact breaks_cons.2 (h c (List.mem_cons_self ..))

theorem breaks_append_of_ne (hne : run ≠ []) (h : ∀ c ∈ run, p c = false) :
    Breaks p (run ++ rest) := by
  obtain ⟨c, run, rfl⟩ := List.exists_cons_of_ne_nil hne
  exact breaks_cons.2 (h c (List.mem_cons_self ..))

theorem ne_nil_of_breaks (hne : run ≠ []) (h : ∀ c ∈ run, p c = true)
    (hb : Breaks p (s ++ (run ++ rest))) : s ≠ [] := by
  rintro rfl
  obtain ⟨c, run, rfl⟩ := List.exists_cons_of_ne_nil hne
  have hc := h c (List.mem_cons_self ..)
  rw [breaks_cons.1 hb] at hc
  cases hc

theorem takeWhile_dropWhile_iff :
    s.takeWhile p = run ∧ s.dropWhile p = rest ↔
      (∀ c ∈ run, p c = true) ∧ s = run ++ rest ∧ Breaks p rest := by
  constructor
  · rintro ⟨rfl, rfl⟩
    exact ⟨fun c hc ↦ List.mem_takeWhile_imp hc, List.takeWhile_append_dropWhile.symm,
      breaks_dropWhile⟩
  · rintro ⟨hrun, rfl, hrest⟩
    rw [List.takeWhile_append_of_pos hrun, List.dropWhile_append_of_pos hrun]
    cases rest with
    | nil => simp
    | cons c rest => simp [breaks_cons.1 hrest]

end Runs

def words (s : List Char) : List (List Char) := (s.splitOnP isBlank).filter (!·.isEmpty)

def IsGap (s : List Char) : Prop := ∀ c ∈ s, isBlank c = true

def IsWord (s : List Char) : Prop := s ≠ [] ∧ ∀ c ∈ s, isBlank c = false

variable {s gap word rest : List Char} {ws : List (List Char)}

theorem isGap_nil : IsGap [] := List.forall_mem_nil _

theorem isGap_singleton {c : Char} : IsGap [c] ↔ isBlank c = true := List.forall_mem_singleton

theorem all_isBlank_iff : s.all isBlank = true ↔ IsGap s := List.all_eq_true

instance (s : List Char) : Decidable (IsGap s) := decidable_of_iff _ all_isBlank_iff

theorem IsWord.breaks (h : IsWord word) : Breaks isBlank (word ++ rest) :=
  breaks_append_of_ne h.1 h.2

theorem IsWord.gap_ne_nil (h : IsWord word) (hb : Breaks (!isBlank ·) (gap ++ (word ++ rest))) :
    gap ≠ [] :=
  ne_nil_of_breaks h.1 (fun c hc ↦ by simp [h.2 c hc]) hb

theorem IsGap.breaks (h : IsGap gap) (hne : gap ≠ []) : Breaks (!isBlank ·) (gap ++ rest) :=
  breaks_append_of_ne hne fun c hc ↦ by simp [h c hc]

theorem IsGap.ends (h : IsGap gap) : Breaks (!isBlank ·) gap := by
  simpa using breaks_append (fun c hc ↦ by simpa using h c hc) breaks_nil

theorem IsGap.colon (h : IsGap gap) : ':' ∉ gap := by
  intro hc
  have hb := h ':' hc
  revert hb
  decide

@[simp]
theorem words_nil : words [] = [] := rfl

theorem words_cons_blank {c : Char} (h : isBlank c = true) : words (c :: s) = words s := by
  simp [words, List.splitOnP_cons_eq_if_modifyHead, h]

theorem words_gap (h : IsGap gap) : words (gap ++ rest) = words rest := by
  induction gap with
  | nil => rfl
  | cons c gap ih =>
    rw [List.cons_append, words_cons_blank (h c (List.mem_cons_self ..))]
    exact ih fun d hd ↦ h d (List.mem_cons_of_mem c hd)

theorem words_word (h : IsWord word) (hrest : Breaks (!isBlank ·) rest) :
    words (word ++ rest) = word :: words rest := by
  obtain ⟨hne, hw⟩ := h
  cases rest with
  | nil => simp [words, List.splitOnP_eq_singleton hw, hne]
  | cons c rest =>
    have hc : isBlank c = true := by simpa using breaks_cons.1 hrest
    rw [words_cons_blank hc, words, List.splitOnP_append_cons_of_forall_mem hw c hc]
    simp [words, hne]

theorem isGap_or_exists_word (s : List Char) :
    IsGap s ∨ ∃ gap word rest, s = gap ++ (word ++ rest) ∧ IsGap gap ∧ IsWord word ∧
      Breaks (!isBlank ·) rest := by
  obtain ⟨hgap, hs, hbreaks⟩ := (takeWhile_dropWhile_iff (p := isBlank)).1 ⟨rfl, rfl⟩
  obtain ⟨hword, ht, hrest⟩ := (takeWhile_dropWhile_iff (p := (!isBlank ·))).1 ⟨rfl, rfl⟩
  cases hrun : s.dropWhile isBlank with
  | nil => exact .inl (List.dropWhile_eq_nil_iff.1 hrun)
  | cons c t =>
    have hne : (s.dropWhile isBlank).takeWhile (!isBlank ·) ≠ [] := by
      rw [hrun] at hbreaks ⊢
      simp [breaks_cons.1 hbreaks]
    exact .inr ⟨_, _, _, hs.trans (congrArg _ ht), hgap, ⟨hne, by simpa using hword⟩, hrest⟩

theorem words_eq_nil_iff : words s = [] ↔ IsGap s := by
  refine ⟨fun h ↦ ?_, fun h ↦ by rw [← List.append_nil s, words_gap h, words_nil]⟩
  obtain hs | ⟨gap, word, rest, rfl, hgap, hword, hrest⟩ := isGap_or_exists_word s
  · exact hs
  · rw [words_gap hgap, words_word hword hrest] at h
    cases h

theorem words_eq_cons_iff :
    words s = word :: ws ↔ ∃ gap rest, s = gap ++ (word ++ rest) ∧ IsGap gap ∧ IsWord word ∧
      Breaks (!isBlank ·) rest ∧ words rest = ws := by
  constructor
  · intro h
    obtain hs | ⟨gap, word', rest, rfl, hgap, hword, hrest⟩ := isGap_or_exists_word s
    · rw [words_eq_nil_iff.2 hs] at h
      cases h
    · rw [words_gap hgap, words_word hword hrest] at h
      cases h
      exact ⟨gap, rest, rfl, hgap, hword, hrest, rfl⟩
  · rintro ⟨gap, rest, rfl, hgap, hword, hrest, rfl⟩
    rw [words_gap hgap, words_word hword hrest]

theorem IsGap.append (h : IsGap s) (hgap : IsGap gap) : IsGap (s ++ gap) :=
  List.forall_mem_append.2 ⟨h, hgap⟩

theorem words_append_gap (hgap : IsGap gap) (s : List Char) : words (s ++ gap) = words s := by
  generalize hws : words s = ws
  induction ws generalizing s with
  | nil => exact words_eq_nil_iff.2 ((words_eq_nil_iff.1 hws).append hgap)
  | cons word ws ih =>
    obtain ⟨lead, rest, rfl, hlead, hword, hrest, hmore⟩ := words_eq_cons_iff.1 hws
    refine words_eq_cons_iff.2 ⟨lead, rest ++ gap, by simp, hlead, hword, ?_, ih rest hmore⟩
    cases rest with
    | nil => exact hgap.ends
    | cons c rest => exact breaks_cons.2 (breaks_cons.1 hrest)

def TrimsTo (s t : List Char) : Prop :=
  ∃ lead tail, IsGap lead ∧ IsGap tail ∧ s = lead ++ (t ++ tail) ∧
    Breaks isBlank t ∧ Breaks isBlank t.reverse

theorem trimsTo_trim (s : List Char) : TrimsTo s (trim s) := by
  obtain ⟨hlead, hs, hfront⟩ := (takeWhile_dropWhile_iff (p := isBlank) (s := s)).1 ⟨rfl, rfl⟩
  obtain ⟨htail, ht, hback⟩ :=
    (takeWhile_dropWhile_iff (p := isBlank) (s := (s.dropWhile isBlank).reverse)).1 ⟨rfl, rfl⟩
  have hrest : s.dropWhile isBlank =
      trim s ++ ((s.dropWhile isBlank).reverse.takeWhile isBlank).reverse := by
    rw [trim, ← List.reverse_append, ← ht, List.reverse_reverse]
  refine ⟨_, _, hlead, fun c hc ↦ htail c (List.mem_reverse.1 hc), hs.trans (congrArg _ hrest),
    fun c hc ↦ hfront c ?_, ?_⟩
  · rw [hrest, List.head?_append, Option.mem_def.1 hc]
    rfl
  · rw [trim, List.reverse_reverse]
    exact hback

theorem TrimsTo.trim_eq {t : List Char} (h : TrimsTo s t) : trim s = t := by
  obtain ⟨lead, tail, hlead, htail, rfl, hfront, hback⟩ := h
  rw [trim, List.dropWhile_append_of_pos hlead]
  cases t with
  | nil =>
    rw [List.nil_append, List.dropWhile_eq_nil_iff.2 htail]
    rfl
  | cons c t =>
    have hwhole : Breaks isBlank (c :: t ++ tail) := breaks_cons.2 (breaks_cons.1 hfront)
    rw [dropWhile_of_breaks hwhole, List.reverse_append,
      List.dropWhile_append_of_pos fun d hd ↦ htail d (List.mem_reverse.1 hd),
      dropWhile_of_breaks hback, List.reverse_reverse]

theorem IsWord.trimsTo {lead tail : List Char} (h : IsWord word) (hlead : IsGap lead)
    (htail : IsGap tail) (hs : s = lead ++ (word ++ tail)) : TrimsTo s word :=
  ⟨lead, tail, hlead, htail, hs, fun c hc ↦ h.2 c (List.mem_of_mem_head? hc),
    fun c hc ↦ h.2 c (List.mem_reverse.1 (List.mem_of_mem_head? hc))⟩

theorem IsWord.trimsTo_self (h : IsWord word) : TrimsTo word word :=
  h.trimsTo isGap_nil isGap_nil (List.append_nil word).symm

theorem isBlank_of_visible {c : Char} (hlow : 0x20 < c.toNat) (hhigh : c.toNat < 0x7F) :
    isBlank c = false := by
  refine List.any_eq_false.2 fun (lo, hi) hrange ↦ ?_
  have houtside : ∀ range ∈ blankRanges, range.2 ≤ 0x20 ∨ 0x7F ≤ range.1 := by decide
  have := houtside (lo, hi) hrange
  simp only [Bool.and_eq_true, decide_eq_true_eq]
  omega

end OneTape.Text
