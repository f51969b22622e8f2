import OneTape.Json.StringReader
import OneTape.Json.Writer
import OneTape.Proofs.Json.Grammar

namespace OneTape.Json

open Text

variable {c : Char} {s rest : List Char}

theorem hexValue?_of_isHex {n : Nat} (h : IsHex c n) : hexValue? c = some n := by
  have hdigit : ∀ d < 16, hexValue? (Nat.digitChar d) = some d ∧
      hexValue? (Nat.digitChar d).toUpper = some d := by decide
  obtain ⟨hn, rfl | rfl⟩ := h
  · exact (hdigit n hn).1
  · exact (hdigit n hn).2

theorem readUnit_append {n : Nat} {digits : List Char} (h : IsUnit n digits) (rest : List Char) :
    readUnit (digits ++ rest) = .ok (n, rest) := by
  cases h with
  | @mk a b c d i j k l ha hb hc hd =>
    have hbytes : ¬ byteLength [a, b, c, d] < 4 := by
      have h₁ := a.utf8Size_pos
      have h₂ := b.utf8Size_pos
      have h₃ := c.utf8Size_pos
      have h₄ := d.utf8Size_pos
      simp only [byteLength, List.foldr_cons, List.foldr_nil]
      omega
    have hunits : [a, b, c, d].mapM hexValue? = some [i, j, k, l] := by
      simp [hexValue?_of_isHex ha, hexValue?_of_isHex hb, hexValue?_of_isHex hc,
        hexValue?_of_isHex hd]
    simp only [readUnit, List.cons_append, List.nil_append, List.take_succ_cons, List.take_zero,
      hbytes, hunits, if_false, List.drop_succ_cons, List.drop_zero]

theorem shortEscape?_of_mem {letter : Char} (h : (letter, c) ∈ shortEscapes) :
    shortEscape? letter = some c ∧ letter ≠ 'u' := by
  revert h
  simp only [shortEscapes, List.mem_cons, Prod.mk.injEq, List.not_mem_nil, or_false]
  rintro (⟨rfl, rfl⟩ | ⟨rfl, rfl⟩ | ⟨rfl, rfl⟩ | ⟨rfl, rfl⟩ | ⟨rfl, rfl⟩ | ⟨rfl, rfl⟩ |
    ⟨rfl, rfl⟩ | ⟨rfl, rfl⟩) <;> decide

theorem readEscape_short {letter : Char} (h : (letter, c) ∈ shortEscapes) (rest : List Char) :
    readEscape (letter :: rest) = .ok (c, rest) := by
  obtain ⟨hshort, hu⟩ := shortEscape?_of_mem h
  unfold readEscape
  split
  · rename_i heq
    cases heq
  · rename_i heq
    exact absurd (List.cons.inj heq).1 hu
  · rename_i heq
    cases heq
    rw [hshort]

theorem isLowUnit_isHighUnit (c : Char) :
    isLowUnit c.toNat = false ∧ isHighUnit c.toNat = false := by
  have hvalid : c.toNat < 0xD800 ∨ 0xDFFF < c.toNat ∧ c.toNat < 0x110000 := c.valid
  simp only [isLowUnit, isHighUnit, Bool.and_eq_false_iff, decide_eq_false_iff_not]
  omega

theorem readEscape_unit {digits : List Char} (h : IsUnit c.toNat digits) (rest : List Char) :
    readEscape ('u' :: (digits ++ rest)) = .ok (c, rest) := by
  obtain ⟨hlow, hhigh⟩ := isLowUnit_isHighUnit c
  simp [readEscape, readUnit_append h, hlow, hhigh, bind, Except.bind, pure, Except.pure]

theorem pairedChar_units (h : 0x10000 ≤ c.toNat) :
    pairedChar (0xD800 + (c.toNat - 0x10000) / 0x400) (0xDC00 + (c.toNat - 0x10000) % 0x400) =
      c := by
  have hvalue : 0x10000 + (0xD800 + (c.toNat - 0x10000) / 0x400 - 0xD800) * 0x400 +
      (0xDC00 + (c.toNat - 0x10000) % 0x400 - 0xDC00) = c.toNat := by omega
  rw [pairedChar, hvalue, Char.ofNat_toNat]

theorem readEscape_pair {high low : List Char} (hc : 0x10000 ≤ c.toNat)
    (hhigh : IsUnit (0xD800 + (c.toNat - 0x10000) / 0x400) high)
    (hlow : IsUnit (0xDC00 + (c.toNat - 0x10000) % 0x400) low) (rest : List Char) :
    readEscape ('u' :: (high ++ '\\' :: 'u' :: (low ++ rest))) = .ok (c, rest) := by
  have hvalid : c.toNat < 0xD800 ∨ 0xDFFF < c.toNat ∧ c.toNat < 0x110000 := c.valid
  have hnot : isLowUnit (0xD800 + (c.toNat - 0x10000) / 0x400) = false := by
    simp only [isLowUnit, Bool.and_eq_false_iff, decide_eq_false_iff_not]
    omega
  have hfirst : isHighUnit (0xD800 + (c.toNat - 0x10000) / 0x400) = true := by
    simp only [isHighUnit, Bool.and_eq_true, decide_eq_true_eq]
    omega
  have hsecond : isLowUnit (0xDC00 + (c.toNat - 0x10000) % 0x400) = true := by
    simp only [isLowUnit, Bool.and_eq_true, decide_eq_true_eq]
    omega
  simp only [readEscape, readUnit_append hhigh, hnot, hfirst, readLowUnit, readUnit_append hlow,
    hsecond, pairedChar_units hc, bind, Except.bind, pure, Except.pure, if_true, if_false,
    Bool.false_eq_true]

def withFirst (c : Char) (read : Except Fault (List Char × List Char)) :
    Except Fault (List Char × List Char) :=
  read.map fun (cs, rest) ↦ (c :: cs, rest)

theorem readCharacters_quote (rest : List Char) :
    readCharacters ('"' :: rest) = .ok ([], rest) := by
  rw [readCharacters]

theorem readCharacters_backslash (h : readEscape s = .ok (c, rest)) :
    readCharacters ('\\' :: s) = withFirst c (readCharacters rest) := by
  rw [readCharacters]
  split
  · rename_i hf
    cases hf.symm.trans h
  · rename_i hc
    cases hc.symm.trans h
    rfl

theorem isControl_eq_false (h : 0x20 ≤ c.toNat) : isControl c = false := by
  simpa [isControl] using h

theorem readCharacters_plain (hq : c ≠ '"') (hb : c ≠ '\\') (hc : isControl c = false)
    (rest : List Char) : readCharacters (c :: rest) = withFirst c (readCharacters rest) := by
  rw [readCharacters.eq_4 c rest hq hb, hc]
  rfl

/-- A character is read however it is spelled, and reading goes on behind it. -/
theorem readCharacters_spells (h : SpellsChar c s) (rest : List Char) :
    readCharacters (s ++ rest) = withFirst c (readCharacters rest) := by
  cases h with
  | plain hcontrol hquote hbackslash =>
    exact readCharacters_plain hquote hbackslash (isControl_eq_false hcontrol) rest
  | short h => exact readCharacters_backslash (readEscape_short h rest)
  | unit h => exact readCharacters_backslash (readEscape_unit h rest)
  | @pair high low hc hhigh hlow =>
    have hread := readCharacters_backslash (readEscape_pair hc hhigh hlow rest)
    simpa using hread

theorem readCharacters_flatten {cs : List Char} {parts : List (List Char)}
    (h : List.Forall₂ SpellsChar cs parts) (rest : List Char) :
    readCharacters (parts.flatten ++ '"' :: rest) = .ok (cs, rest) := by
  induction h with
  | nil => exact readCharacters_quote rest
  | cons hc _ ih =>
    rw [List.flatten_cons, List.append_assoc, readCharacters_spells hc, ih]
    rfl

theorem isUnit_control (h : c.toNat < 0x20) :
    IsUnit c.toNat ['0', '0', hexDigit (c.toNat / 16), hexDigit c.toNat] := by
  have hzero : IsHex '0' 0 := ⟨by decide, .inl rfl⟩
  have hmod : c.toNat / 16 % 16 = c.toNat / 16 := Nat.mod_eq_of_lt (by omega)
  have hhigh : IsHex (hexDigit (c.toNat / 16)) (c.toNat / 16) :=
    ⟨by omega, .inl (by rw [hexDigit, hmod])⟩
  have hlow : IsHex (hexDigit c.toNat) (c.toNat % 16) := ⟨Nat.mod_lt _ (by decide), .inl rfl⟩
  have hunit := IsUnit.mk hzero hzero hhigh hlow
  rwa [show ((0 * 16 + 0) * 16 + c.toNat / 16) * 16 + c.toNat % 16 = c.toNat by omega] at hunit

theorem spellsChar_escape (c : Char) : SpellsChar c (escape c) := by
  unfold escape
  split
  case h_8 hquote hbackslash _ _ _ _ _ =>
    split
    case isTrue h => exact .unit (isUnit_control h)
    case isFalse h => exact .plain (Nat.le_of_not_lt h) hquote hbackslash
  all_goals exact .short (by decide)

/-- A string is read as what it spells. The reader starts behind the quote. -/
theorem readStringRest_spells {x : String} (h : SpellsString x s) (rest : List Char) :
    ∃ t, s ++ rest = '"' :: t ∧ readStringRest t = .ok (x, rest) := by
  obtain ⟨parts, hparts, rfl⟩ := h
  refine ⟨parts.flatten ++ '"' :: rest, by simp, ?_⟩
  rw [readStringRest, readCharacters_flatten hparts]
  simp [Except.map]

theorem toList_writeString (x : String) :
    (writeString x).toList = '"' :: (x.toList.flatMap escape ++ ['"']) := by
  simp [writeString]

theorem spellsString_writeString (x : String) : SpellsString x (writeString x).toList := by
  refine ⟨x.toList.map escape, ?_, ?_⟩
  · rw [List.forall₂_map_right_iff, List.forall₂_same]
    exact fun c _ ↦ spellsChar_escape c
  · rw [toList_writeString, List.flatMap_def]

theorem isStringPart_of_spells (h : SpellsChar c s) :
    ∃ parts : List (List Char), (∀ part ∈ parts, IsStringPart part) ∧ parts.flatten = s := by
  cases h with
  | plain hcontrol hquote hbackslash =>
    exact ⟨[_], List.forall_mem_singleton.2 (.plain hcontrol hquote hbackslash), by simp⟩
  | short h => exact ⟨[_], List.forall_mem_singleton.2 (.short h), by simp⟩
  | unit h => exact ⟨[_], List.forall_mem_singleton.2 (.unit h), by simp⟩
  | pair _ hhigh hlow =>
    exact ⟨[_, _], List.forall_mem_cons.2 ⟨.unit hhigh, List.forall_mem_singleton.2 (.unit hlow)⟩,
      by simp⟩

theorem isString_of_spells {x : String} (h : SpellsString x s) : IsString s := by
  obtain ⟨spelled, hspelled, rfl⟩ := h
  have hparts : ∃ parts : List (List Char), (∀ part ∈ parts, IsStringPart part) ∧
      parts.flatten = spelled.flatten := by
    generalize x.toList = cs at hspelled
    induction hspelled with
    | nil => exact ⟨[], by simp, rfl⟩
    | cons hc _ ih =>
      obtain ⟨parts, hparts, hflatten⟩ := isStringPart_of_spells hc
      obtain ⟨others, hothers, hrest⟩ := ih
      exact ⟨parts ++ others, List.forall_mem_append.2 ⟨hparts, hothers⟩, by
        rw [List.flatten_append, List.flatten_cons, hflatten, hrest]⟩
  obtain ⟨parts, hparts, hflatten⟩ := hparts
  exact ⟨parts, hparts, by rw [hflatten]⟩

end OneTape.Json
