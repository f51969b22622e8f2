import OneTape.Proofs.Text.Words
import OneTape.Statement.Reader

namespace OneTape

theorem Action.ofToken?_eq_some_iff {s : List Char} {a : Action} :
    ofToken? s = some a ↔ s = [a.letter] := by
  constructor
  · intro h
    unfold ofToken? at h
    split at h <;> cases h <;> rfl
  · rintro rfl
    exact ofToken?_letter a

namespace Statement

open Text

def IsName (s : List Char) : Prop := s ≠ [] ∧ ∀ c ∈ s, isTokenChar c = true

structure Condition.WellFormed (c : Condition) : Prop where
  state : IsName c.state
  gap : IsGap c.gap
  gap_ne : c.gap ≠ []
  input : IsName c.input

structure Effect.WellFormed (e : Effect) : Prop where
  next : IsName e.next
  gap : IsGap e.gap
  gap_ne : e.gap ≠ []
  output : IsName e.output
  gap' : IsGap e.gap'
  gap'_ne : e.gap' ≠ []

structure WellFormed (s : Statement) : Prop where
  lead : IsGap s.lead
  condition : s.condition.WellFormed
  gap : IsGap s.gap
  gap' : IsGap s.gap'
  effect : s.effect.WellFormed
  trail : IsGap s.trail

section Tokens

variable {s name gap rest : List Char}

theorem isTokenChar_iff {c : Char} : isTokenChar c = true ↔ c ≠ ':' ∧ isBlank c = false := by
  simp [isTokenChar]

theorem isTokenChar_of_isBlank {c : Char} (h : isBlank c = true) : isTokenChar c = false := by
  simp [isTokenChar, h]

theorem isName_iff : IsName name ↔ IsWord name ∧ ':' ∉ name := by
  simp only [IsName, IsWord, isTokenChar_iff, and_assoc, and_congr_right_iff]
  exact fun _ ↦ ⟨fun h ↦ ⟨fun c hc ↦ (h c hc).2, fun hc ↦ (h _ hc).1 rfl⟩,
    fun h c hc ↦ ⟨fun he ↦ h.2 (he ▸ hc), h.1 c hc⟩⟩

theorem isName_letter (a : Action) : IsName [a.letter] := by
  refine ⟨List.cons_ne_nil _ _, List.forall_mem_singleton.2 ?_⟩
  cases a <;> rfl

theorem IsName.breaks (h : IsName name) : Breaks isBlank (name ++ rest) :=
  (isName_iff.1 h).1.breaks

theorem Condition.WellFormed.breaks {c : Condition} (h : c.WellFormed) :
    Breaks isBlank (c.text ++ rest) := by
  simp only [Condition.text, List.append_assoc]
  exact h.state.breaks

theorem Effect.WellFormed.breaks {e : Effect} (h : e.WellFormed) :
    Breaks isBlank (e.text ++ rest) := by
  simp only [Effect.text, List.append_assoc]
  exact h.next.breaks

theorem breaks_gap (h : IsGap gap) (hrest : Breaks isTokenChar rest) :
    Breaks isTokenChar (gap ++ rest) :=
  breaks_append (fun c hc ↦ isTokenChar_of_isBlank (h c hc)) hrest

theorem breaks_gap_of_ne (h : IsGap gap) (hne : gap ≠ []) : Breaks isTokenChar (gap ++ rest) :=
  breaks_append_of_ne hne fun c hc ↦ isTokenChar_of_isBlank (h c hc)

theorem gap_ne_nil (hname : IsName name) (h : Breaks isTokenChar (gap ++ (name ++ rest))) :
    gap ≠ [] :=
  ne_nil_of_breaks hname.1 hname.2 h

end Tokens

section Readers

variable {s name gap rest : List Char} {a : Action}

theorem readGap_eq_iff :
    readGap s = (gap, rest) ↔ IsGap gap ∧ s = gap ++ rest ∧ Breaks isBlank rest := by
  rw [readGap, Prod.mk.injEq]
  exact takeWhile_dropWhile_iff

theorem readGap_eq (s : List Char) :
    ∃ gap rest, readGap s = (gap, rest) ∧ IsGap gap ∧ s = gap ++ rest ∧ Breaks isBlank rest :=
  ⟨_, _, rfl, readGap_eq_iff.1 rfl⟩

theorem readSymbol_ok_iff :
    readSymbol s = .ok (name, rest) ↔
      IsName name ∧ s = name ++ rest ∧ Breaks isTokenChar rest := by
  have hrun : s.takeWhile isTokenChar = name ∧ s.dropWhile isTokenChar = rest ↔ _ :=
    takeWhile_dropWhile_iff
  by_cases hs : s.takeWhile isTokenChar = []
  · simp only [readSymbol, hs, if_true, reduceCtorEq, false_iff]
    rintro ⟨⟨hne, hname⟩, he, hrest⟩
    exact hne ((hrun.2 ⟨hname, he, hrest⟩).1.symm.trans hs)
  · simp only [readSymbol, hs, if_false, Except.ok.injEq, Prod.mk.injEq, hrun, IsName, and_assoc]
    refine ⟨fun h ↦ ⟨?_, h⟩, fun h ↦ h.2⟩
    rwa [← (hrun.2 h).1]

theorem readAction_ok_iff :
    readAction s = .ok (a, rest) ↔ s = a.letter :: rest ∧ Breaks isTokenChar rest := by
  have hrun : s.takeWhile isTokenChar = [a.letter] ∧ s.dropWhile isTokenChar = rest ↔ _ :=
    takeWhile_dropWhile_iff
  constructor
  · intro h
    cases hact : Action.ofToken? (s.takeWhile isTokenChar) with
    | none => simp [readAction, hact] at h
    | some b =>
      simp only [readAction, hact, Except.ok.injEq, Prod.mk.injEq] at h
      obtain ⟨rfl, hrest⟩ := h
      exact (hrun.1 ⟨Action.ofToken?_eq_some_iff.1 hact, hrest⟩).2
  · rintro ⟨hs, hrest⟩
    obtain ⟨htake, hdrop⟩ := hrun.2 ⟨(isName_letter a).2, hs, hrest⟩
    simp [readAction, htake, hdrop, Action.ofToken?_letter]

theorem readSymbol_error {e : Stop} (h : readSymbol s = .error e) : e = ⟨.symbol, s⟩ := by
  simp only [readSymbol] at h
  split at h <;> cases h
  rfl

theorem readAction_error {e : Stop} (h : readAction s = .error e) : e = ⟨.action, s⟩ := by
  simp only [readAction] at h
  split at h <;> cases h
  rfl

theorem readCondition_error {e : Stop} (h : readCondition s = .error e) :
    e.expected = .symbol := by
  obtain h | ⟨found, -, h⟩ := bind_error_iff.1 h
  · rw [readSymbol_error h]
  · obtain h | ⟨found', -, h⟩ := bind_error_iff.1 h
    · rw [readSymbol_error h]
    · cases h

theorem readEffect_error {e : Stop} (h : readEffect s = .error e) :
    e.expected = .symbol ∨ e.expected = .action := by
  obtain h | ⟨found, -, h⟩ := bind_error_iff.1 h
  · exact .inl (by rw [readSymbol_error h])
  · obtain h | ⟨found', -, h⟩ := bind_error_iff.1 h
    · exact .inl (by rw [readSymbol_error h])
    · obtain h | ⟨found'', -, h⟩ := bind_error_iff.1 h
      · exact .inr (by rw [readAction_error h])
      · cases h

theorem readCondition_ok_iff {c : Condition} :
    readCondition s = .ok (c, rest) ↔
      c.WellFormed ∧ s = c.text ++ rest ∧ Breaks isTokenChar rest := by
  constructor
  · intro h
    obtain ⟨⟨state, s₁⟩, hstate, h⟩ := bind_ok_iff.1 h
    obtain ⟨gap, s₂, hread, hgap, rfl, -⟩ := readGap_eq s₁
    simp only [hread] at h
    obtain ⟨⟨input, s₃⟩, hinput, h⟩ := bind_ok_iff.1 h
    cases h
    obtain ⟨hnameS, rfl, hbreaks⟩ := readSymbol_ok_iff.1 hstate
    obtain ⟨hnameI, rfl, hrest⟩ := readSymbol_ok_iff.1 hinput
    exact ⟨⟨hnameS, hgap, gap_ne_nil hnameI hbreaks, hnameI⟩, by simp [Condition.text], hrest⟩
  · rintro ⟨hc, rfl, hrest⟩
    have hstate : readSymbol (c.text ++ rest) = .ok (c.state, c.gap ++ (c.input ++ rest)) :=
      readSymbol_ok_iff.2 ⟨hc.state, by simp [Condition.text], breaks_gap_of_ne hc.gap hc.gap_ne⟩
    have hgap : readGap (c.gap ++ (c.input ++ rest)) = (c.gap, c.input ++ rest) :=
      readGap_eq_iff.2 ⟨hc.gap, rfl, hc.input.breaks⟩
    have hinput : readSymbol (c.input ++ rest) = .ok (c.input, rest) :=
      readSymbol_ok_iff.2 ⟨hc.input, rfl, hrest⟩
    simp [readCondition, hstate, hgap, hinput, bind, Except.bind, pure, Except.pure]

theorem readEffect_ok_iff {e : Effect} :
    readEffect s = .ok (e, rest) ↔
      e.WellFormed ∧ s = e.text ++ rest ∧ Breaks isTokenChar rest := by
  constructor
  · intro h
    obtain ⟨⟨next, s₁⟩, hnext, h⟩ := bind_ok_iff.1 h
    obtain ⟨gap, s₂, hread, hgap, rfl, -⟩ := readGap_eq s₁
    simp only [hread] at h
    obtain ⟨⟨output, s₃⟩, houtput, h⟩ := bind_ok_iff.1 h
    obtain ⟨gap', s₄, hread', hgap', rfl, -⟩ := readGap_eq s₃
    simp only [hread'] at h
    obtain ⟨⟨action, s₅⟩, haction, h⟩ := bind_ok_iff.1 h
    cases h
    obtain ⟨hnameN, rfl, hbreaks⟩ := readSymbol_ok_iff.1 hnext
    obtain ⟨hnameO, rfl, hbreaks'⟩ := readSymbol_ok_iff.1 houtput
    obtain ⟨rfl, hrest⟩ := readAction_ok_iff.1 haction
    exact ⟨⟨hnameN, hgap, gap_ne_nil hnameO hbreaks, hnameO, hgap',
      gap_ne_nil (isName_letter action) hbreaks'⟩, by simp [Effect.text], hrest⟩
  · rintro ⟨he, rfl, hrest⟩
    have hnext : readSymbol (e.text ++ rest) =
        .ok (e.next, e.gap ++ (e.output ++ (e.gap' ++ e.action.letter :: rest))) :=
      readSymbol_ok_iff.2 ⟨he.next, by simp [Effect.text], breaks_gap_of_ne he.gap he.gap_ne⟩
    have hgap : readGap (e.gap ++ (e.output ++ (e.gap' ++ e.action.letter :: rest))) =
        (e.gap, e.output ++ (e.gap' ++ e.action.letter :: rest)) :=
      readGap_eq_iff.2 ⟨he.gap, rfl, he.output.breaks⟩
    have houtput : readSymbol (e.output ++ (e.gap' ++ e.action.letter :: rest)) =
        .ok (e.output, e.gap' ++ e.action.letter :: rest) :=
      readSymbol_ok_iff.2 ⟨he.output, rfl, breaks_gap_of_ne he.gap' he.gap'_ne⟩
    have hgap' : readGap (e.gap' ++ e.action.letter :: rest) =
        (e.gap', e.action.letter :: rest) :=
      readGap_eq_iff.2 ⟨he.gap', rfl, (isName_letter e.action).breaks⟩
    have haction : readAction (e.action.letter :: rest) = .ok (e.action, rest) :=
      readAction_ok_iff.2 ⟨rfl, hrest⟩
    simp [readEffect, hnext, hgap, houtput, hgap', haction, bind, Except.bind, pure, Except.pure]

end Readers

/-- A text is read as a statement just when it is the text of that statement. -/
theorem read_ok_iff {text : List Char} {s : Statement} :
    read text = .ok s ↔ s.WellFormed ∧ s.text = text := by
  constructor
  · intro h
    obtain ⟨lead, s₁, hread, hlead, htext, -⟩ := readGap_eq text
    simp only [read, hread] at h
    obtain ⟨⟨condition, s₂⟩, hcondition, h⟩ := bind_ok_iff.1 h
    obtain ⟨gap, s₃, hread, hgap, rfl, -⟩ := readGap_eq s₂
    simp only [hread] at h
    split at h
    · rename_i s₄
      obtain ⟨gap', s₅, hread, hgap', rfl, -⟩ := readGap_eq s₄
      simp only [hread] at h
      obtain ⟨⟨effect, s₆⟩, heffect, h⟩ := bind_ok_iff.1 h
      obtain ⟨trail, s₇, hread, htrail, rfl, -⟩ := readGap_eq s₆
      simp only [hread] at h
      split at h
      · subst s₇
        cases h
        obtain ⟨hwfC, rfl, -⟩ := readCondition_ok_iff.1 hcondition
        obtain ⟨hwfE, rfl, -⟩ := readEffect_ok_iff.1 heffect
        exact ⟨⟨hlead, hwfC, hgap, hgap', hwfE, htrail⟩, by simp [htext, Statement.text]⟩
      · cases h
    · cases h
  · rintro ⟨hs, rfl⟩
    have hlead : readGap s.text = (s.lead, s.condition.text ++
        (s.gap ++ ':' :: (s.gap' ++ (s.effect.text ++ s.trail)))) :=
      readGap_eq_iff.2 ⟨hs.lead, by simp [text], hs.condition.breaks⟩
    have hcondition : readCondition (s.condition.text ++
        (s.gap ++ ':' :: (s.gap' ++ (s.effect.text ++ s.trail)))) =
        .ok (s.condition, s.gap ++ ':' :: (s.gap' ++ (s.effect.text ++ s.trail))) :=
      readCondition_ok_iff.2 ⟨hs.condition, rfl, breaks_gap hs.gap (by simp [isTokenChar])⟩
    have hgap : readGap (s.gap ++ ':' :: (s.gap' ++ (s.effect.text ++ s.trail))) =
        (s.gap, ':' :: (s.gap' ++ (s.effect.text ++ s.trail))) :=
      readGap_eq_iff.2 ⟨hs.gap, rfl, breaks_cons.2 (by decide)⟩
    have hgap' : readGap (s.gap' ++ (s.effect.text ++ s.trail)) =
        (s.gap', s.effect.text ++ s.trail) :=
      readGap_eq_iff.2 ⟨hs.gap', rfl, hs.effect.breaks⟩
    have heffect : readEffect (s.effect.text ++ s.trail) = .ok (s.effect, s.trail) :=
      readEffect_ok_iff.2 ⟨hs.effect, rfl, by simpa using breaks_gap hs.trail breaks_nil⟩
    have htrail : readGap s.trail = (s.trail, []) :=
      readGap_eq_iff.2 ⟨hs.trail, by simp, breaks_nil⟩
    simp [read, hlead, hcondition, hgap, hgap', heffect, htrail, bind, Except.bind, pure,
      Except.pure]

end Statement

end OneTape
