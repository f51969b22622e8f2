import OneTape.Config
import OneTape.Proofs.Text.Numeral

namespace OneTape.Config

open Text

def SpellsHead (text : String) (position : Nat) : Prop :=
  1 ≤ position ∧ position < UInt64.size ∧
    ∃ numeral, TrimsTo text.toList numeral ∧ IsNumeral numeral position

variable {text : String} {position : Nat} {e : Error}

theorem spellsHead_iff :
    SpellsHead text position ↔ 1 ≤ position ∧ readNumeral? (trim text.toList) = some position := by
  rw [readNumeral?_eq_some_iff]
  constructor
  · rintro ⟨hpos, hlt, numeral, htrim, hnumeral⟩
    rw [htrim.trim_eq]
    exact ⟨hpos, hnumeral, hlt⟩
  · rintro ⟨hpos, hnumeral, hlt⟩
    exact ⟨hpos, hlt, _, trimsTo_trim text.toList, hnumeral⟩

theorem readHead_eq_ok_iff : readHead text = .ok position ↔ SpellsHead text position := by
  rw [spellsHead_iff, readHead]
  split
  · rename_i m hread
    simp only [hread, Except.ok.injEq, Option.some.injEq]
    omega
  · rename_i hread
    constructor
    · intro h
      cases h
    · rintro ⟨hpos, h⟩
      obtain ⟨m, rfl⟩ := Nat.exists_eq_add_of_le' hpos
      exact absurd h (hread m)

theorem readHead_eq_error_iff :
    readHead text = .error e ↔ e = .badHead text ∧ ∀ position, ¬ SpellsHead text position := by
  have hcause : ∀ {e}, readHead text = .error e → e = .badHead text := by
    intro e h
    unfold readHead at h
    split at h <;> cases h
    rfl
  simp only [← readHead_eq_ok_iff]
  cases h : readHead text with
  | ok position => simp
  | error e' =>
    obtain rfl := hcause h
    simp [eq_comm]

theorem not_spellsHead_of_large {numeral : List Char} (htrim : TrimsTo text.toList numeral)
    (h : IsNumeral numeral position) (hlarge : UInt64.size ≤ position) (n : Nat) :
    ¬ SpellsHead text n := by
  rintro ⟨-, hlt, numeral', htrim', hn⟩
  obtain rfl : numeral' = numeral := htrim'.trim_eq.symm.trans htrim.trim_eq
  exact absurd (h.unique hn ▸ hlarge) (Nat.not_le.2 hlt)

theorem spellsHead_toString (hpos : 1 ≤ position) (hlt : position < UInt64.size) :
    SpellsHead (toString position) position := by
  have hdigits : (toString position).toList = Nat.toDigits 10 position := Nat.toList_repr
  have hnumeral := isNumeral_toDigits position
  rw [← hdigits] at hnumeral
  exact ⟨hpos, hlt, _, hnumeral.isWord.trimsTo_self, hnumeral⟩

/-- A text is read as the position of a head just if it is a numeral from 1 up that fits in a word,
with any white space around it. Every other text is refused as it was given, among them all numerals
that are too large. The digits of each number that fits are read as this number. -/
theorem readHead_exact :
    (∀ text position, readHead text = .ok position ↔ SpellsHead text position) ∧
    (∀ text e, readHead text = .error e ↔
      e = .badHead text ∧ ∀ position, ¬ SpellsHead text position) ∧
    (∀ text numeral value, TrimsTo text.toList numeral → IsNumeral numeral value →
      UInt64.size ≤ value → readHead text = .error (.badHead text)) ∧
    ∀ position, 1 ≤ position → position < UInt64.size →
      readHead (toString position) = .ok position :=
  ⟨fun _ _ ↦ readHead_eq_ok_iff, fun _ _ ↦ readHead_eq_error_iff,
    fun _ _ _ htrim h hlarge ↦
      readHead_eq_error_iff.2 ⟨rfl, not_spellsHead_of_large htrim h hlarge⟩,
    fun _ hpos hlt ↦ readHead_eq_ok_iff.2 (spellsHead_toString hpos hlt)⟩

/-- A number with zeros, a sign and a wide space, the largest number, and the next one, which a word
would turn into 0. -/
theorem readHead_exact_widest :
    readHead "\u3000+0012\n" = .ok 12 ∧
    readHead (toString 18446744073709551615) = .ok 18446744073709551615 ∧
    readHead "18446744073709551616" = .error (.badHead "18446744073709551616") ∧
    readHead "1.5" = .error (.badHead "1.5") := by
  obtain ⟨hok, herror, hlarge, hdigits⟩ := readHead_exact
  have htwelve : IsNumeral "+0012".toList 12 := ⟨"0012".toList, .inr rfl, by decide, by decide⟩
  have hnext : IsNumeral "18446744073709551616".toList 18446744073709551616 :=
    ⟨_, .inl rfl, by decide, by decide⟩
  have hwide : IsGap ['\u3000'] := by decide
  have hfeed : IsGap ['\n'] := by decide
  have htrim : TrimsTo "\u3000+0012\n".toList "+0012".toList :=
    htwelve.isWord.trimsTo hwide hfeed (by decide)
  refine ⟨(hok _ _).2 ⟨by decide, by decide, _, htrim, htwelve⟩, hdigits _ (by decide) (by decide),
    hlarge _ _ _ hnext.isWord.trimsTo_self hnext (by decide), ?_⟩
  refine (herror _ _).2 ⟨rfl, fun position h ↦ ?_⟩
  cases (hok _ _).2 h

end OneTape.Config
