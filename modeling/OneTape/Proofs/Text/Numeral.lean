import OneTape.Proofs.Json.Grammar
import OneTape.Proofs.Text.Words
import OneTape.Text.Basic

namespace OneTape.Text

open Json (IsDigits)

variable {c : Char} {s digits : List Char} {n v : Nat}

theorem isDigit_of_mem_toDigits (h : c ∈ Nat.toDigits 10 n) : c.isDigit = true :=
  Nat.isDigit_of_mem_toDigits (by decide) (by decide) h

theorem isDigits_toDigits (n : Nat) : IsDigits (Nat.toDigits 10 n) :=
  ⟨Nat.toDigits_ne_nil, fun _ hc ↦ isDigit_of_mem_toDigits hc⟩

theorem decimalValue_toDigits (n : Nat) : decimalValue (Nat.toDigits 10 n) = n :=
  Nat.ofDigitChars_ten_toDigits

theorem head_toDigits (n : Nat) :
    ∃ d ds, Nat.toDigits 10 n = d :: ds ∧ d.isDigit = true ∧ (d = '0' → n = 0 ∧ ds = []) := by
  induction n using Nat.strongRecOn with
  | ind n ih =>
    by_cases hn : n < 10
    · refine ⟨n.digitChar, [], Nat.toDigits_of_lt_base hn, ?_, fun hz ↦ ⟨?_, rfl⟩⟩
      · simpa using hn
      · exact Nat.digitChar_eq_zero.1 hz
    · obtain ⟨d, ds, hds, hd, hz⟩ := ih (n / 10) (by omega)
      refine ⟨d, ds ++ [(n % 10).digitChar], ?_, hd, fun h ↦ ?_⟩
      · rw [Nat.toDigits_of_base_le (by decide) (by omega), hds, List.cons_append]
      · have := (hz h).1
        omega

theorem le_ofDigitChars (digits : List Char) (n : Nat) : n ≤ Nat.ofDigitChars 10 digits n := by
  rw [Nat.ofDigitChars_eq_ofDigitChars_zero]
  exact (Nat.le_mul_of_pos_left n (Nat.pow_pos (by decide))).trans (Nat.le_add_right _ _)

theorem readDigits?_cons_eq_some_iff : readDigits? n (c :: s) = some v ↔
    c.isDigit = true ∧ 10 * n + digitValue c ≤ maxWord ∧
      readDigits? (10 * n + digitValue c) s = some v := by
  simp [readDigits?, and_assoc]

/-- A value that is too large for a word stays so with all the digits that follow, hence nothing is
lost by stopping there. -/
theorem readDigits?_eq_some_iff (hn : n ≤ maxWord) : readDigits? n digits = some v ↔
    (∀ c ∈ digits, c.isDigit = true) ∧ Nat.ofDigitChars 10 digits n = v ∧ v ≤ maxWord := by
  induction digits generalizing n with
  | nil =>
    simp only [readDigits?, Option.some.injEq, Nat.ofDigitChars_nil]
    constructor
    · rintro rfl
      exact ⟨List.forall_mem_nil _, rfl, hn⟩
    · exact fun h ↦ h.2.1
  | cons c digits ih =>
    rw [readDigits?_cons_eq_some_iff, List.forall_mem_cons, Nat.ofDigitChars_cons]
    constructor
    · rintro ⟨hc, hfits, hread⟩
      obtain ⟨hdigits, hvalue, hv⟩ := (ih hfits).1 hread
      exact ⟨⟨hc, hdigits⟩, hvalue, hv⟩
    · rintro ⟨⟨hc, hdigits⟩, hvalue, hv⟩
      have hfits : 10 * n + digitValue c ≤ maxWord :=
        (le_ofDigitChars digits _).trans (hvalue.trans_le hv)
      exact ⟨hc, hfits, (ih hfits).2 ⟨hdigits, hvalue, hv⟩⟩

def IsNumeral (s : List Char) (v : Nat) : Prop :=
  ∃ digits, (s = digits ∨ s = '+' :: digits) ∧ IsDigits digits ∧ Nat.ofDigitChars 10 digits 0 = v

theorem eq_unsigned_or (s : List Char) : s = unsigned s ∨ s = '+' :: unsigned s := by
  unfold unsigned
  split
  · exact .inr rfl
  · exact .inl rfl

theorem unsigned_of_isDigits (h : IsDigits digits) : unsigned digits = digits := by
  unfold unsigned
  split
  · exact absurd (h.2 '+' List.mem_cons_self) (by decide)
  · rfl

theorem isNumeral_iff :
    IsNumeral s v ↔ IsDigits (unsigned s) ∧ Nat.ofDigitChars 10 (unsigned s) 0 = v := by
  constructor
  · rintro ⟨digits, rfl | rfl, hdigits, rfl⟩
    · rw [unsigned_of_isDigits hdigits]
      exact ⟨hdigits, rfl⟩
    · exact ⟨hdigits, rfl⟩
  · exact fun h ↦ ⟨unsigned s, eq_unsigned_or s, h⟩

theorem IsNumeral.unique {w : Nat} (h : IsNumeral s v) (h' : IsNumeral s w) : v = w :=
  (isNumeral_iff.1 h).2.symm.trans (isNumeral_iff.1 h').2

theorem isNumeral_toDigits (n : Nat) : IsNumeral (Nat.toDigits 10 n) n :=
  ⟨_, .inl rfl, isDigits_toDigits n, Nat.ofDigitChars_ten_toDigits⟩

theorem isBlank_of_isDigit (h : c.isDigit = true) : isBlank c = false := by
  obtain ⟨hlow, hhigh⟩ := Char.isDigit_iff_toNat.1 h
  exact isBlank_of_visible (Nat.lt_of_lt_of_le (by decide) hlow)
    (Nat.lt_of_le_of_lt hhigh (by decide))

theorem IsNumeral.isWord (h : IsNumeral s v) : IsWord s := by
  obtain ⟨digits, hs, ⟨hne, hdigits⟩, -⟩ := h
  have hblank : ∀ c ∈ digits, isBlank c = false := fun c hc ↦ isBlank_of_isDigit (hdigits c hc)
  obtain rfl | rfl := hs
  · exact ⟨hne, hblank⟩
  · exact ⟨List.cons_ne_nil '+' digits, List.forall_mem_cons.2 ⟨by decide, hblank⟩⟩

theorem lt_size_iff_le_maxWord : v < UInt64.size ↔ v ≤ maxWord := by
  rw [maxWord, UInt64.size]
  omega

theorem readNumeral?_eq_some_iff : readNumeral? s = some v ↔ IsNumeral s v ∧ v < UInt64.size := by
  rw [isNumeral_iff, readNumeral?, lt_size_iff_le_maxWord]
  by_cases hs : unsigned s = []
  · simp [hs, IsDigits]
  · have hread : readDigits? 0 (unsigned s) = some v ↔ _ :=
      readDigits?_eq_some_iff (Nat.zero_le maxWord)
    simp [hs, hread, IsDigits, and_assoc]

theorem readNumeral?_eq_none_iff :
    readNumeral? s = none ↔ ∀ v, IsNumeral s v → UInt64.size ≤ v := by
  simp only [Option.eq_none_iff_forall_ne_some, ne_eq, readNumeral?_eq_some_iff, not_and,
    Nat.not_lt]

end OneTape.Text
