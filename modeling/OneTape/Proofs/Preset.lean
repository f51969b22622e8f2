import Mathlib
import OneTape.Preset
import OneTape.Proofs.Text.Numeral

namespace OneTape

namespace Text

def SameLetter (c d : Char) : Prop := d = c.toLower ∨ d = c.toUpper

def Recases : List Char → List Char → Prop := List.Forall₂ SameLetter

variable {c d : Char} {s t : List Char} {v : Nat}

theorem sameLetter_iff : SameLetter c d ↔ c.toLower = d.toLower := by
  constructor
  · rintro (rfl | rfl) <;> simp
  · intro h
    by_cases hd : d.isUpper
    · right
      rw [← Char.toUpper_toLower_eq_toUpper, h, Char.toUpper_toLower_eq_toUpper,
        Char.toUpper_eq_of_not_isLower (Char.not_isLower_of_isUpper hd)]
    · left
      rw [h, Char.toLower_eq_of_not_isUpper hd]

theorem SameLetter.isAlpha (h : SameLetter c d) : d.isAlpha = c.isAlpha := by
  obtain rfl | rfl := h <;> simp

theorem recases_iff : Recases s t ↔ s.map Char.toLower = t.map Char.toLower := by
  rw [← List.forall₂_eq_eq_eq, List.forall₂_map_left_iff, List.forall₂_map_right_iff]
  exact ⟨.imp fun _ _ ↦ sameLetter_iff.1, .imp fun _ _ ↦ sameLetter_iff.2⟩

def Lettered (s : List Char) : Prop := ∃ c rest, s = c :: rest ∧ c.isAlpha = true

theorem Recases.lettered (h : Recases s t) (hs : Lettered s) : Lettered t := by
  obtain ⟨c, rest, rfl, hc⟩ := hs
  obtain ⟨d, more, hd, -, rfl⟩ := List.forall₂_cons_left_iff.1 h
  exact ⟨d, more, rfl, hd.isAlpha.trans hc⟩

theorem toNat_of_isAlpha (h : c.isAlpha = true) : 0x41 ≤ c.toNat ∧ c.toNat ≤ 0x7A := by
  simp only [Char.isAlpha, Char.isUpper, Char.isLower, Bool.or_eq_true, decide_eq_true_eq,
    Bool.and_eq_true, UInt32.le_iff_toNat_le, Char.reduceVal, UInt32.reduceToNat, ge_iff_le,
    Char.toNat_val] at h
  omega

theorem Lettered.breaks (h : Lettered s) : Breaks isBlank s := by
  obtain ⟨c, rest, rfl, hc⟩ := h
  obtain ⟨hlow, hhigh⟩ := toNat_of_isAlpha hc
  exact breaks_cons.2 (isBlank_of_visible (by omega) (by omega))

theorem Lettered.not_isNumeral (h : Lettered s) : ¬ IsNumeral s v := by
  obtain ⟨c, rest, rfl, hc⟩ := h
  have hlow := (toNat_of_isAlpha hc).1
  rintro ⟨digits, rfl | hs, ⟨-, hdigits⟩, -⟩
  · have hhigh : c.toNat ≤ 0x39 := (Char.isDigit_iff_toNat.1 (hdigits c List.mem_cons_self)).2
    omega
  · rw [(List.cons.inj hs).1] at hc
    cases hc

end Text

namespace Preset

open Text

variable {key : String} {preset preset' : Preset} {lead t tail : List Char} {v : Nat}

theorem ofNumber_of_lt (h : v < all.length) : ofNumber v = .ok all[v] := by
  rw [ofNumber, List.getElem?_eq_getElem h]

theorem ofNumber_of_le (h : all.length ≤ v) :
    ofNumber v = .error (.unknownPreset ("#" ++ toString v)) := by
  rw [ofNumber, List.getElem?_eq_none h]

theorem sameName_iff {a b : String} : sameName a b = true ↔ Recases a.toList b.toList := by
  rw [sameName, beq_iff_eq, recases_iff]

theorem nodup_names : (all.map fun preset ↦ preset.name.toList.map Char.toLower).Nodup := by decide

theorem eq_of_recases (hmem : preset ∈ all) (hmem' : preset' ∈ all)
    (h : Recases preset.name.toList t) (h' : Recases preset'.name.toList t) : preset = preset' :=
  List.inj_on_of_nodup_map nodup_names hmem hmem'
    ((recases_iff.1 h).trans (recases_iff.1 h').symm)

theorem ofName_eq_ok_iff {name : String} :
    ofName name = .ok preset ↔ preset ∈ all ∧ Recases preset.name.toList name.toList := by
  unfold ofName
  split
  · rename_i found hfound
    have hmem := List.mem_of_find?_eq_some hfound
    have hsame := List.find?_some hfound
    have hname := sameName_iff.1 hsame
    constructor
    · intro h
      cases h
      exact ⟨hmem, hname⟩
    · rintro ⟨hmem', hname'⟩
      rw [eq_of_recases hmem hmem' hname hname']
  · rename_i hnone
    constructor
    · intro h
      cases h
    · rintro ⟨hmem, hname⟩
      exact absurd (sameName_iff.2 hname) (List.find?_eq_none.1 hnone preset hmem)

theorem ofName_of_absent {name : String}
    (h : ∀ preset ∈ all, ¬ Recases preset.name.toList name.toList) :
    ofName name = .error (.unknownPreset name) := by
  have hnone : all.find? (fun preset ↦ sameName preset.name name) = none :=
    List.find?_eq_none.2 fun preset hmem ↦ mt sameName_iff.1 (h preset hmem)
  rw [ofName, hnone]

/-- The names start and end in letters, so that no white space around them is theirs. -/
theorem lettered_names : ∀ preset ∈ all,
    Lettered preset.name.toList ∧ Lettered preset.name.toList.reverse := by
  simp only [all, List.forall_mem_cons]
  exact ⟨⟨⟨_, _, rfl, rfl⟩, ⟨_, _, rfl, rfl⟩⟩, ⟨⟨_, _, rfl, rfl⟩, ⟨_, _, rfl, rfl⟩⟩,
    List.forall_mem_nil _⟩

theorem trimsTo_name (hmem : preset ∈ all) (h : Recases preset.name.toList t) (hlead : IsGap lead)
    (htail : IsGap tail) (hkey : key.toList = lead ++ (t ++ tail)) : TrimsTo key.toList t := by
  obtain ⟨hfront, hback⟩ := lettered_names preset hmem
  exact ⟨lead, tail, hlead, htail, hkey, (h.lettered hfront).breaks,
    (Recases.lettered (List.forall₂_reverse_iff.2 h) hback).breaks⟩

theorem find_of_numeral (htrim : TrimsTo key.toList t) (h : IsNumeral t v) (hv : v < UInt64.size) :
    find key = ofNumber v := by
  rw [find, htrim.trim_eq, readNumeral?_eq_some_iff.2 ⟨h, hv⟩]

theorem find_of_not_numeral (htrim : TrimsTo key.toList t)
    (h : ∀ v, IsNumeral t v → UInt64.size ≤ v) : find key = ofName (String.ofList t) := by
  rw [find, htrim.trim_eq, readNumeral?_eq_none_iff.2 h]

structure Finds (t : List Char) (reply : Except Error Preset) : Prop where
  number : ∀ v, IsNumeral t v → v < UInt64.size → ∀ h : v < all.length, reply = .ok all[v]
  noNumber : ∀ v, IsNumeral t v → v < UInt64.size → all.length ≤ v →
    reply = .error (.unknownPreset ("#" ++ toString v))
  name : (∀ v, IsNumeral t v → UInt64.size ≤ v) → ∀ preset,
    reply = .ok preset ↔ preset ∈ all ∧ Recases preset.name.toList t
  noName : (∀ v, IsNumeral t v → UInt64.size ≤ v) →
    (∀ preset ∈ all, ¬ Recases preset.name.toList t) →
      reply = .error (.unknownPreset (String.ofList t))

theorem finds (htrim : TrimsTo key.toList t) : Finds t (find key) where
  number v h hv hlt := (find_of_numeral htrim h hv).trans (ofNumber_of_lt hlt)
  noNumber v h hv hle := (find_of_numeral htrim h hv).trans (ofNumber_of_le hle)
  name h preset := by
    rw [find_of_not_numeral htrim h, ofName_eq_ok_iff, String.toList_ofList]
  noName h habsent := by
    rw [find_of_not_numeral htrim h]
    refine ofName_of_absent fun preset hmem ↦ ?_
    rw [String.toList_ofList]
    exact habsent preset hmem

theorem find_of_name (hmem : preset ∈ all) (h : Recases preset.name.toList t) (hlead : IsGap lead)
    (htail : IsGap tail) (hkey : key.toList = lead ++ (t ++ tail)) : find key = .ok preset := by
  have htrim := trimsTo_name hmem h hlead htail hkey
  have hletter := h.lettered (lettered_names preset hmem).1
  exact ((finds htrim).name (fun v hv ↦ absurd hv hletter.not_isNumeral) preset).2 ⟨hmem, h⟩

theorem find_of_padded_numeral (h : IsNumeral t v) (hlt : v < all.length) (hlead : IsGap lead)
    (htail : IsGap tail) (hkey : key.toList = lead ++ (t ++ tail)) : find key = .ok all[v] := by
  have htrim := h.isWord.trimsTo hlead htail hkey
  exact (finds htrim).number v h (Nat.lt_trans hlt (by decide)) hlt

/-- A key finds what the text inside its white space stands for: a numeral that fits in a word the
preset of this number, whatever the names are, and any other text the one preset of this name in any
case. Hence each name and each number can be written with white space around it, the name in any
case and the number with a plus sign and zeros in front, and finds the same preset. -/
theorem find_unambiguous :
    (∀ key t, TrimsTo key.toList t → Finds t (find key)) ∧
    (∀ preset ∈ all, ∀ preset' ∈ all, ∀ t, Recases preset.name.toList t →
      Recases preset'.name.toList t → preset = preset') ∧
    ∀ i name, names[i]? = some name → ∃ preset, preset.name = name ∧ ofNumber i = .ok preset ∧
      ∀ key lead t tail, IsGap lead → IsGap tail → key.toList = lead ++ (t ++ tail) →
        Recases name.toList t ∨ IsNumeral t i → find key = .ok preset := by
  refine ⟨fun _ _ ↦ finds, fun _ hmem _ hmem' _ ↦ eq_of_recases hmem hmem', fun i name hi ↦ ?_⟩
  rw [names, List.getElem?_map, Option.map_eq_some_iff] at hi
  obtain ⟨preset, hpreset, rfl⟩ := hi
  obtain ⟨hlt, rfl⟩ := List.getElem?_eq_some_iff.1 hpreset
  refine ⟨all[i], rfl, ofNumber_of_lt hlt, ?_⟩
  rintro key lead t tail hlead htail hkey (hname | hnumeral)
  · exact find_of_name (List.getElem_mem hlt) hname hlead htail hkey
  · exact find_of_padded_numeral hnumeral hlt hlead htail hkey

/-- A preset by its number and by its name in unusual spellings, a number without a preset, and a
numeral that a word would turn into 1. -/
theorem find_unambiguous_spellings :
    find " +0001\u2003" = .ok bitFlipper ∧ find "\tbIT flIPPer\n" = .ok bitFlipper ∧
    find "007" = .error (.unknownPreset "#7") ∧
    find "18446744073709551617" = .error (.unknownPreset "18446744073709551617") := by
  obtain ⟨hkeys, -, hnames⟩ := find_unambiguous
  obtain ⟨preset, -, hnumber, hspellings⟩ := hnames 1 "Bit Flipper" rfl
  cases hnumber
  have hone : IsNumeral "+0001".toList 1 := ⟨"0001".toList, .inr rfl, by decide, by decide⟩
  have hseven : IsNumeral "007".toList 7 := ⟨_, .inl rfl, by decide, by decide⟩
  have hlarge : IsNumeral "18446744073709551617".toList 18446744073709551617 :=
    ⟨_, .inl rfl, by decide, by decide⟩
  have hrecased : Recases "Bit Flipper".toList "bIT flIPPer".toList := recases_iff.2 (by decide)
  refine ⟨hspellings _ [' '] "+0001".toList ['\u2003'] (by decide) (by decide) (by decide)
      (.inr hone),
    hspellings _ ['\t'] "bIT flIPPer".toList ['\n'] (by decide) (by decide) (by decide)
      (.inl hrecased),
    (hkeys _ _ hseven.isWord.trimsTo_self).noNumber 7 hseven (by decide) (by decide),
    (hkeys _ _ hlarge.isWord.trimsTo_self).noName (fun v hv ↦ ?_) ?_⟩
  · rw [← hlarge.unique hv]
    decide
  · simp only [recases_iff]
    decide

end Preset

end OneTape
