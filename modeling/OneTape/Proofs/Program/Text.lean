import Mathlib.Data.List.Forall2
import OneTape.Program
import OneTape.Proofs.Machine.Edit
import OneTape.Proofs.Rule
import OneTape.Proofs.Text.Lines

namespace OneTape

open Text

section Slots

variable {line : List Char} {rule : Rule} {slot : Slot}

theorem Slot.ofLine_of_isGap (h : IsGap line) : Slot.ofLine line = .ok .vacant :=
  if_pos (all_isBlank_iff.2 h)

theorem Slot.ofLine_of_not_isGap (h : ¬ IsGap line) :
    Slot.ofLine line = (Rule.ofLine (String.ofList line)).map .filled := by
  rw [Slot.ofLine, if_neg (mt all_isBlank_iff.1 h), Rule.ofLine, String.toList_ofList]
  cases Statement.ofLine line <;> rfl

theorem Slot.ofLine_eq_filled_iff :
    Slot.ofLine line = .ok (.filled rule) ↔ Statement.Spells line rule := by
  by_cases h : IsGap line
  · rw [Slot.ofLine_of_isGap h]
    refine ⟨fun he ↦ ?_, fun hs ↦ absurd h hs.not_isGap⟩
    cases he
  · have hread : Rule.ofLine (String.ofList line) = .ok rule ↔ Statement.Spells line rule := by
      rw [Statement.ofLine_eq_ok_iff, String.toList_ofList]
    rw [Slot.ofLine_of_not_isGap h, ← hread]
    cases Rule.ofLine (String.ofList line) <;> simp [Except.map]

theorem Slot.ofLine_eq_vacant_iff : Slot.ofLine line = .ok .vacant ↔ IsGap line := by
  refine ⟨fun h ↦ ?_, Slot.ofLine_of_isGap⟩
  by_contra hgap
  rw [Slot.ofLine_of_not_isGap hgap] at h
  cases hrule : Rule.ofLine (String.ofList line) <;> rw [hrule] at h <;> cases h

theorem Slot.ofLine_toList {line : String} (h : ¬ IsGap line.toList) :
    Slot.ofLine line.toList = (Rule.ofLine line).map .filled := by
  rw [Slot.ofLine_of_not_isGap h, String.ofList_toList]

theorem Slot.ofLine_text (h : ∀ rule, slot = .filled rule → rule.Spellable) :
    Slot.ofLine slot.text.toList = .ok slot := by
  cases slot with
  | vacant => exact Slot.ofLine_of_isGap isGap_nil
  | filled rule => exact Slot.ofLine_eq_filled_iff.2 (h rule rfl).spells

theorem Rule.Spellable.not_mem (h : rule.Spellable) : '\n' ∉ rule.text.toList := by
  have hname : ∀ {name : List Char}, Statement.IsName name → '\n' ∉ name :=
    fun hn hm ↦ absurd (hn.2 _ hm) (by decide)
  have hletter : '\n' ≠ rule.action.letter := by cases rule.action <;> decide
  simp [Rule.text, hname h.state, hname h.input, hname h.next, hname h.output, hletter]

theorem Rule.Spellable.lines_text (h : rule.Spellable) :
    Text.lines rule.text.toList = [rule.text.toList] :=
  lines_of_not_mem h.not_mem fun he ↦ h.spells.not_isGap (he ▸ isGap_nil)

theorem Slot.isLine_text (h : ∀ rule, slot = .filled rule → rule.Spellable) :
    IsLine slot.text.toList := by
  cases slot with
  | vacant => exact .nil
  | filled rule =>
    have hlast : rule.text.toList.getLast? = some rule.action.letter := by
      rw [Rule.text, String.toList_append, Char.toString, String.toList_singleton]
      exact List.getLast?_concat
    have hletter : rule.action.letter ≠ '\r' := by cases rule.action <;> decide
    exact ⟨(h rule rfl).not_mem, fun he ↦ hletter (Option.some.inj (hlast.symm.trans he))⟩

end Slots

namespace Program

variable {p : Program}

def Spellable (p : Program) : Prop := ∀ rule ∈ p.rules, rule.Spellable

def text (p : Program) : String := String.join (p.lines.map (· ++ "\n"))

theorem spellable_iff :
    p.Spellable ↔ ∀ slot ∈ p.slots, ∀ rule, slot = .filled rule → rule.Spellable := by
  simp only [Spellable, mem_rules]
  exact ⟨fun h slot hs rule he ↦ h rule (he ▸ hs), fun h rule hr ↦ h _ hr rule rfl⟩

theorem readRows_cons_ok_iff {number : Nat} {line : List Char} {ls : List (List Char)}
    {slots : List Slot} :
    readRows number (line :: ls) = .ok slots ↔ ∃ slot more, Slot.ofLine line = .ok slot ∧
      readRows (number + 1) ls = .ok more ∧ slots = slot :: more := by
  rw [readRows]
  cases Slot.ofLine line with
  | error complaint => simp
  | ok slot =>
    cases readRows (number + 1) ls with
    | error e => simp [Except.map]
    | ok more => simp [Except.map, eq_comm]

theorem readRows_ok_iff (number : Nat) {ls : List (List Char)} {slots : List Slot} :
    readRows number ls = .ok slots ↔
      List.Forall₂ (fun line slot ↦ Slot.ofLine line = .ok slot) ls slots := by
  induction ls generalizing number slots with
  | nil => simp [readRows, eq_comm]
  | cons line ls ih => simp only [readRows_cons_ok_iff, ih, List.forall₂_cons_left_iff]

theorem ofText_ok_iff {s : String} :
    ofText s = .ok p ↔
      List.Forall₂ (fun line slot ↦ Slot.ofLine line = .ok slot) (Text.lines s.toList) p.slots := by
  rw [← readRows_ok_iff 1, ofText]
  obtain ⟨slots⟩ := p
  cases readRows 1 (Text.lines s.toList) with
  | error e => simp [Except.map]
  | ok rows => simp [Except.map]

theorem toList_text (p : Program) :
    p.text.toList = (p.lines.map String.toList).flatMap (· ++ ['\n']) := by
  simp [text, String.toList_join, List.flatMap_map]

theorem isLine_lines (h : p.Spellable) : ∀ line ∈ p.lines.map String.toList, IsLine line := by
  simp only [lines, List.map_map, List.forall_mem_map]
  exact fun slot hslot ↦ Slot.isLine_text (spellable_iff.1 h slot hslot)

theorem ofText_of_lines {s : String} (h : p.Spellable)
    (hs : Text.lines s.toList = p.lines.map String.toList) : ofText s = .ok p := by
  rw [ofText_ok_iff, hs, lines, List.map_map, List.forall₂_map_left_iff, List.forall₂_same]
  exact fun slot hslot ↦ Slot.ofLine_text (spellable_iff.1 h slot hslot)

theorem Spellable.ofText_text (h : p.Spellable) : ofText p.text = .ok p := by
  refine ofText_of_lines h ?_
  have hlines := lines_ended (isLine_lines h) []
  rwa [List.append_nil, ← toList_text, Text.lines, List.append_nil] at hlines

theorem spellable_of_ofText {s : String} (h : ofText s = .ok p) : p.Spellable := by
  rw [spellable_iff]
  rw [ofText_ok_iff] at h
  generalize Text.lines s.toList = ls, p.slots = slots at h
  induction h with
  | nil => exact List.forall_mem_nil _
  | cons hline _ ih =>
    refine List.forall_mem_cons.2 ⟨fun rule hr ↦ ?_, ih⟩
    subst hr
    exact (Slot.ofLine_eq_filled_iff.1 hline).spellable

theorem lines_intercalate {init : List Slot} (h : Spellable ⟨init⟩) (last : Slot) :
    Text.lines ("\n".intercalate (lines ⟨init ++ [last]⟩)).toList =
      (lines ⟨init⟩).map String.toList ++ Text.lines last.text.toList := by
  have hfeed : "\n".toList = ['\n'] := rfl
  rw [String.toList_intercalate, hfeed, lines, List.map_append, List.map_append]
  exact (congrArg Text.lines (intercalate_feed _ _)).trans (lines_ended (isLine_lines h) _)

/-- Without a line feed at the end a vacant last row does not show. -/
theorem Spellable.ofText_intercalate (h : p.Spellable) :
    ofText ("\n".intercalate p.lines) =
      .ok (if p.slots.getLast? = some .vacant then ⟨p.slots.dropLast⟩ else p) := by
  obtain ⟨slots⟩ := p
  obtain rfl | ⟨init, last, rfl⟩ := List.eq_nil_or_concat slots
  · rfl
  · rw [List.concat_eq_append] at h ⊢
    have hslots := spellable_iff.1 h
    have hinit : Spellable ⟨init⟩ :=
      spellable_iff.2 fun slot hslot ↦ hslots slot (List.mem_append_left _ hslot)
    have hlines := lines_intercalate hinit last
    cases last with
    | vacant =>
      -- Behind the last line feed there is nothing, which is no line.
      rw [if_pos List.getLast?_concat, List.dropLast_concat]
      exact ofText_of_lines hinit (hlines.trans (List.append_nil _))
    | filled rule =>
      have hne : (init ++ [Slot.filled rule]).getLast? ≠ some .vacant := by simp
      have hrule : rule.Spellable := hslots (.filled rule) (by simp) rule rfl
      rw [if_neg hne]
      refine ofText_of_lines h (hlines.trans ?_)
      simp [lines, Slot.text, hrule.lines_text]

open Machine

theorem Spellable.performAll (h : p.Spellable) {ops : List Operation}
    (hops : ∀ op ∈ ops, ∀ rule row, op ≠ .insertRule rule row) :
    ((new p).performAll ops).2.program.Spellable := by
  rw [spellable_iff] at h ⊢
  rintro slot hslot rule rfl
  obtain hold | ⟨op, hmem, hput⟩ := mem_slots_performAll hslot
  · exact h _ hold rule rfl
  · cases hput with
    | insertRule rule row => exact absurd rfl (hops _ hmem rule row)
    | editRule hline row => exact (Statement.ofLine_eq_ok_iff.1 hline).spellable

/-- A program is read back from its text just when all its names can stand in statements. Without
the line feed at the end such a program loses a vacant last row, and nothing else. Every program
that was read is such a program, and a machine with it keeps to such programs as long as rules are
put into it as lines. -/
theorem ofText_text_iff_spellable (p : Program) :
    (ofText p.text = .ok p ↔ p.Spellable) ∧
    (p.Spellable → ofText ("\n".intercalate p.lines) =
      .ok (if p.slots.getLast? = some .vacant then ⟨p.slots.dropLast⟩ else p)) ∧
    (∀ s, ofText s = .ok p → p.Spellable) ∧
    (p.Spellable → ∀ ops : List Operation,
      (∀ op ∈ ops, ∀ rule row, op ≠ .insertRule rule row) →
        ((new p).performAll ops).2.program.Spellable) :=
  ⟨⟨spellable_of_ofText, fun h ↦ h.ofText_text⟩, fun h ↦ h.ofText_intercalate,
    fun _ ↦ spellable_of_ofText, fun h _ ↦ h.performAll⟩

end Program

end OneTape
