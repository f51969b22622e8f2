import OneTape.Json.Scalar
import OneTape.Json.Writer
import OneTape.Proofs.Json.Grammar
import OneTape.Proofs.Json.Reader
import OneTape.Proofs.Text.Numeral
import OneTape.Proofs.Text.Words

namespace OneTape.Json

open Text

/-- Whether a character can make a number of digits longer. -/
def inNumber (c : Char) : Bool := c.isDigit || c == '.' || c == 'e' || c == 'E'

variable {n : Nat} {ds rest : List Char}

section Read

variable (atEnd : Reason)

theorem readDigits_append (hds : IsDigits ds) (hrest : Breaks Char.isDigit rest) :
    readDigits atEnd (ds ++ rest) = .ok (ds, rest) := by
  obtain ⟨htake, hdrop⟩ := takeWhile_dropWhile_iff.2 ⟨hds.2, rfl, hrest⟩
  obtain ⟨d, ds, rfl⟩ := List.exists_cons_of_ne_nil hds.1
  have hd : d.isDigit = true := hds.2 d List.mem_cons_self
  rw [List.cons_append] at htake hdrop ⊢
  simp only [readDigits, hd, if_true, htake, hdrop]

theorem readWhole_of_ne_zero {d : Char} (hd : d ≠ '0') (s : List Char) :
    readWhole atEnd (d :: s) = readDigits atEnd (d :: s) := by
  unfold readWhole
  split
  · rename_i heq
    exact absurd (List.cons.inj heq).1 hd
  · rfl

theorem breaks_isDigit (h : Breaks inNumber rest) : Breaks Char.isDigit rest := fun c hc ↦ by
  have hno := h c hc
  simp only [inNumber, Bool.or_eq_false_iff] at hno
  exact hno.1.1.1

theorem breaks_gap {gap : List Char} (h : IsSpaces gap) (hrest : Breaks inNumber rest) :
    Breaks inNumber (gap ++ rest) := by
  refine breaks_append (fun c hc ↦ ?_) hrest
  have hspace := h c hc
  simp only [List.mem_cons, List.not_mem_nil, or_false] at hspace
  obtain rfl | rfl | rfl | rfl := hspace <;> rfl

theorem breaks_spaces {gap : List Char} (h : IsSpaces gap) : Breaks inNumber gap := by
  simpa using breaks_gap h breaks_nil

theorem readWhole_append (h : IsWhole ds) (hrest : Breaks Char.isDigit rest) :
    readWhole atEnd (ds ++ rest) = .ok (ds, rest) := by
  have hdigits := readDigits_append atEnd h.1 hrest
  obtain ⟨d, ds, rfl⟩ := List.exists_cons_of_ne_nil h.1.1
  by_cases hd : d = '0'
  · -- A zero is read on its own, which looks at what comes behind it.
    subst hd
    obtain rfl : ds = [] := (List.cons.inj (h.2 rfl)).2
    cases rest with
    | nil => exact hdigits
    | cons c rest =>
      have hc : c.isDigit = false := breaks_cons.1 hrest
      simp [readWhole, hc]
  · exact (readWhole_of_ne_zero atEnd hd _).trans hdigits

theorem isWhole_toDigits (n : Nat) : IsWhole (Nat.toDigits 10 n) := by
  refine ⟨isDigits_toDigits n, fun h ↦ ?_⟩
  obtain ⟨d, ds, hds, -, hz⟩ := head_toDigits n
  rw [hds] at h ⊢
  obtain rfl : d = '0' := Option.some.inj h
  rw [(hz rfl).2]

theorem readFraction_none (h : Breaks inNumber rest) :
    readFraction atEnd rest = .ok ([], rest) := by
  unfold readFraction
  split
  · exact absurd (breaks_cons.1 h) (by decide)
  · rfl

theorem readExponent_none (h : Breaks inNumber rest) :
    readExponent atEnd rest = .ok (none, rest) := by
  unfold readExponent
  split
  · rename_i c s
    have hc : ¬ (c = 'e' ∨ c = 'E') := by
      rintro (rfl | rfl) <;> exact absurd (breaks_cons.1 h) (by decide)
    rw [if_neg hc]
  · rfl

theorem readNumeral_toDigits (n : Nat) (h : Breaks inNumber rest) :
    readNumeral atEnd (Nat.toDigits 10 n ++ rest) =
      .ok (⟨Nat.toDigits 10 n, [], none⟩, rest) := by
  simp only [readNumeral, readWhole_append atEnd (isWhole_toDigits n) (breaks_isDigit h),
    readFraction_none atEnd h, readExponent_none atEnd h, bind, Except.bind, pure, Except.pure]

def inFraction (c : Char) : Bool := c.isDigit || c == '.'

theorem breaks_exponent {exponent : List Char} (h : IsExponent exponent)
    (hrest : Breaks inNumber rest) : Breaks inFraction (exponent ++ rest) := by
  obtain rfl | ⟨mark, hm, sign, -, digits, -, rfl⟩ := h
  · intro c hc
    have hno := hrest c hc
    simp only [inNumber, Bool.or_eq_false_iff] at hno
    simp only [inFraction, hno.1.1.1, hno.1.1.2, Bool.or_self]
  · simp only [List.mem_cons, List.not_mem_nil, or_false] at hm
    obtain rfl | rfl := hm <;> exact breaks_cons.2 rfl

theorem readFraction_append {fraction : List Char} (h : IsFraction fraction)
    (hrest : Breaks inFraction rest) :
    ∃ digits, readFraction atEnd (fraction ++ rest) = .ok (digits, rest) ∧
      Breaks Char.isDigit (fraction ++ rest) := by
  have hdigit : Breaks Char.isDigit rest := fun c hc ↦ by
    have hno := hrest c hc
    simp only [inFraction, Bool.or_eq_false_iff] at hno
    exact hno.1
  obtain rfl | ⟨digits, hdigits, rfl⟩ := h
  · refine ⟨[], ?_, hdigit⟩
    rw [List.nil_append]
    unfold readFraction
    split
    · exact absurd (breaks_cons.1 hrest) (by decide)
    · rfl
  · exact ⟨digits, readDigits_append atEnd hdigits hdigit, breaks_cons.2 rfl⟩

theorem readSign_append {sign digits : List Char} (hs : sign ∈ [[], ['+'], ['-']])
    (h : IsDigits digits) (rest : List Char) :
    (readSign (sign ++ (digits ++ rest))).2 = digits ++ rest := by
  obtain ⟨d, digits, rfl⟩ := List.exists_cons_of_ne_nil h.1
  have hd : d.isDigit = true := h.2 d List.mem_cons_self
  simp only [List.mem_cons, List.not_mem_nil, or_false] at hs
  obtain rfl | rfl | rfl := hs
  · rw [List.nil_append, List.cons_append]
    unfold readSign
    split
    · rename_i heq
      rw [(List.cons.inj heq).1] at hd
      cases hd
    · rename_i heq
      rw [(List.cons.inj heq).1] at hd
      cases hd
    · rfl
  · rfl
  · rfl

theorem readExponent_append {exponent : List Char} (h : IsExponent exponent)
    (hrest : Breaks inNumber rest) :
    ∃ e, readExponent atEnd (exponent ++ rest) = .ok (e, rest) := by
  obtain rfl | ⟨mark, hm, sign, hs, digits, hdigits, rfl⟩ := h
  · exact ⟨none, readExponent_none atEnd hrest⟩
  · have hmark : mark = 'e' ∨ mark = 'E' := by simpa using hm
    have hread := readDigits_append atEnd hdigits (breaks_isDigit hrest)
    rw [← readSign_append hs hdigits] at hread
    refine ⟨some ((readSign (sign ++ (digits ++ rest))).1, digits), ?_⟩
    simp [readExponent, hmark, hread, Except.map]

theorem readNumeral_append {whole fraction exponent : List Char} (hw : IsWhole whole)
    (hf : IsFraction fraction) (he : IsExponent exponent) (hrest : Breaks inNumber rest) :
    ∃ x, readNumeral atEnd (whole ++ (fraction ++ (exponent ++ rest))) = .ok (x, rest) := by
  obtain ⟨e, hexponent⟩ := readExponent_append atEnd he hrest
  obtain ⟨digits, hfraction, hbreaks⟩ := readFraction_append atEnd hf (breaks_exponent he hrest)
  have hwhole := readWhole_append atEnd hw hbreaks
  exact ⟨⟨whole, digits, e⟩, by
    simp only [readNumeral, hwhole, hfraction, hexponent, bind, Except.bind, pure, Except.pure]⟩

variable {atEnd} {s r : List Char} (atEnd' : Reason)

theorem readDigits_atEnd {ds : List Char} (h : readDigits atEnd s = .ok (ds, r)) :
    readDigits atEnd' s = .ok (ds, r) := by
  cases s with
  | nil => cases h
  | cons c s => exact h

theorem readWhole_atEnd {ds : List Char} (h : readWhole atEnd s = .ok (ds, r)) :
    readWhole atEnd' s = .ok (ds, r) := by
  unfold readWhole at h ⊢
  split at h
  · exact h
  · exact readDigits_atEnd atEnd' h

theorem readFraction_atEnd {ds : List Char} (h : readFraction atEnd s = .ok (ds, r)) :
    readFraction atEnd' s = .ok (ds, r) := by
  unfold readFraction at h ⊢
  split at h
  · exact readDigits_atEnd atEnd' h
  · exact h

theorem readExponent_atEnd {e : Option (Bool × List Char)} (h : readExponent atEnd s = .ok (e, r)) :
    readExponent atEnd' s = .ok (e, r) := by
  unfold readExponent at h ⊢
  split at h
  · rename_i c t
    dsimp only
    split at h
    · rename_i hmark
      obtain ⟨⟨ds, r'⟩, hdigits, h⟩ := map_ok_iff.1 h
      rw [if_pos hmark, readDigits_atEnd atEnd' hdigits]
      exact congrArg Except.ok h
    · rename_i hmark
      rw [if_neg hmark]
      exact h
  · exact h

theorem readNumeral_atEnd {x : Numeral} (h : readNumeral atEnd s = .ok (x, r)) :
    readNumeral atEnd' s = .ok (x, r) := by
  obtain ⟨⟨whole, s₁⟩, hw, h⟩ := bind_ok_iff.1 h
  obtain ⟨⟨fraction, s₂⟩, hf, h⟩ := bind_ok_iff.1 h
  obtain ⟨⟨exponent, s₃⟩, he, h⟩ := bind_ok_iff.1 h
  simp only [readNumeral, readWhole_atEnd atEnd' hw, readFraction_atEnd atEnd' hf,
    readExponent_atEnd atEnd' he, bind, Except.bind]
  exact h

end Read

theorem readNumber_toDigits (hn : n ≤ maxWord) (h : Breaks inNumber rest) :
    readNumber false (Nat.toDigits 10 n ++ rest) = .ok (.natural n, rest) := by
  simp [readNumber, readNumeral_toDigits .endInValue n h, Numeral.number, decimalValue_toDigits, hn,
    bind, Except.bind, pure, Except.pure]

theorem toList_writeNatural (n : Nat) : (writeNatural n).toList = Nat.toDigits 10 n :=
  Nat.toList_repr

theorem readNatural_toDigits (hn : n ≤ maxWord) (h : Breaks inNumber rest) :
    readNatural (Nat.toDigits 10 n ++ rest) = .ok (n, rest) := by
  have hnumber := readNumber_toDigits hn h
  obtain ⟨d, ds, hds, hd, -⟩ := head_toDigits n
  rw [hds, List.cons_append] at hnumber ⊢
  have hspace : skipSpace (d :: (ds ++ rest)) = d :: (ds ++ rest) :=
    skipSpace_cons (opens_isDigit hd).space _
  have hminus : d ≠ '-' := by
    rintro rfl
    exact absurd hd (by decide)
  simp only [readNatural, hspace]
  split
  · rename_i heq
    exact absurd (List.cons.inj heq).1 hminus
  · simp [hd, hnumber, bind, Except.bind, pure, Except.pure]

end OneTape.Json
