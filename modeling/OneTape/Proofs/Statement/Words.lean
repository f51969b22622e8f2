import OneTape.Proofs.Statement.Reader
import OneTape.Statement.Complaint

namespace OneTape.Statement

open Text

/-- The words of a line, two in front of the only colon and three behind it, are the rule's. -/
def Spells (line : List Char) (rule : Rule) : Prop :=
  ∃ before after, line.splitOn ':' = [before, after] ∧
    words before = [rule.state.toList, rule.input.toList] ∧
    words after = [rule.next.toList, rule.output.toList, [rule.action.letter]]

theorem splitOn_eq_pair_iff {s before after : List Char} {a : Char} :
    s.splitOn a = [before, after] ↔ s = before ++ a :: after ∧ a ∉ before ∧ a ∉ after := by
  constructor
  · intro h
    by_cases hs : a ∈ s
    · obtain ⟨front, back, rfl, hfront⟩ := List.eq_append_cons_of_mem hs
      rw [List.splitOn_append_cons_self_of_not_mem hfront] at h
      obtain ⟨rfl, hback⟩ := List.cons.inj h
      by_cases hb : a ∈ back
      · obtain ⟨front', back', rfl, hfront'⟩ := List.eq_append_cons_of_mem hb
        rw [List.splitOn_append_cons_self_of_not_mem hfront'] at hback
        exact absurd (List.cons.inj hback).2 (List.splitOn_ne_nil a back')
      · rw [List.splitOn_eq_singleton hb] at hback
        cases hback
        exact ⟨rfl, hfront, hb⟩
    · rw [List.splitOn_eq_singleton hs] at h
      cases h
  · rintro ⟨rfl, hbefore, hafter⟩
    rw [List.splitOn_append_cons_self_of_not_mem hbefore, List.splitOn_eq_singleton hafter]

section Cuts

variable {s lead gap state input next output : List Char} {a : Action}

theorem words_condition {c : Condition} (hlead : IsGap lead) (hc : c.WellFormed)
    (hgap : IsGap gap) : words (lead ++ c.text ++ gap) = [c.state, c.input] := by
  have hshape : lead ++ c.text ++ gap = lead ++ (c.state ++ (c.gap ++ (c.input ++ gap))) := by
    simp [Condition.text]
  rw [hshape, words_gap hlead, words_word (isName_iff.1 hc.state).1 (hc.gap.breaks hc.gap_ne),
    words_gap hc.gap, words_word (isName_iff.1 hc.input).1 hgap.ends, words_eq_nil_iff.2 hgap]

theorem words_effect {e : Effect} (hlead : IsGap lead) (he : e.WellFormed) (hgap : IsGap gap) :
    words (lead ++ e.text ++ gap) = [e.next, e.output, [e.action.letter]] := by
  have hshape : lead ++ e.text ++ gap =
      lead ++ (e.next ++ (e.gap ++ (e.output ++ (e.gap' ++ ([e.action.letter] ++ gap))))) := by
    simp [Effect.text]
  rw [hshape, words_gap hlead, words_word (isName_iff.1 he.next).1 (he.gap.breaks he.gap_ne),
    words_gap he.gap, words_word (isName_iff.1 he.output).1 (he.gap'.breaks he.gap'_ne),
    words_gap he.gap', words_word (isName_iff.1 (isName_letter e.action)).1 hgap.ends,
    words_eq_nil_iff.2 hgap]

theorem exists_condition (h : words s = [state, input]) (hs : ':' ∉ s) :
    ∃ lead gap gap', s = lead ++ (Condition.mk state gap input).text ++ gap' ∧ IsGap lead ∧
      (Condition.mk state gap input).WellFormed ∧ IsGap gap' := by
  obtain ⟨lead, s₁, rfl, hlead, hstate, hbreaks, h⟩ := words_eq_cons_iff.1 h
  obtain ⟨gap, s₂, rfl, hgap, hinput, -, h⟩ := words_eq_cons_iff.1 h
  simp only [List.mem_append, not_or] at hs
  exact ⟨lead, gap, s₂, by simp [Condition.text], hlead,
    ⟨isName_iff.2 ⟨hstate, hs.2.1⟩, hgap, hinput.gap_ne_nil hbreaks,
      isName_iff.2 ⟨hinput, hs.2.2.2.1⟩⟩, words_eq_nil_iff.1 h⟩

theorem exists_effect (h : words s = [next, output, [a.letter]]) (hs : ':' ∉ s) :
    ∃ lead gap gap' trail, s = lead ++ (Effect.mk next gap output gap' a).text ++ trail ∧
      IsGap lead ∧ (Effect.mk next gap output gap' a).WellFormed ∧ IsGap trail := by
  obtain ⟨lead, s₁, rfl, hlead, hnext, hbreaks, h⟩ := words_eq_cons_iff.1 h
  obtain ⟨gap, s₂, rfl, hgap, houtput, hbreaks', h⟩ := words_eq_cons_iff.1 h
  obtain ⟨gap', s₃, rfl, hgap', hletter, -, h⟩ := words_eq_cons_iff.1 h
  simp only [List.mem_append, not_or] at hs
  exact ⟨lead, gap, gap', s₃, by simp [Effect.text], hlead,
    ⟨isName_iff.2 ⟨hnext, hs.2.1⟩, hgap, houtput.gap_ne_nil hbreaks,
      isName_iff.2 ⟨houtput, hs.2.2.2.1⟩, hgap', hletter.gap_ne_nil hbreaks'⟩,
    words_eq_nil_iff.1 h⟩

end Cuts

theorem Condition.WellFormed.colon {c : Condition} (h : c.WellFormed) : ':' ∉ c.text := by
  simp [Condition.text, (isName_iff.1 h.state).2, (isName_iff.1 h.input).2, h.gap.colon]

theorem Effect.WellFormed.colon {e : Effect} (h : e.WellFormed) : ':' ∉ e.text := by
  simp [Effect.text, (isName_iff.1 h.next).2, (isName_iff.1 h.output).2, h.gap.colon,
    h.gap'.colon, (isName_iff.1 (isName_letter e.action)).2]

theorem spells_iff {line : List Char} {rule : Rule} :
    Spells line rule ↔ ∃ s : Statement, s.WellFormed ∧ s.text = line ∧ s.rule = rule := by
  constructor
  · rintro ⟨before, after, hcut, hbefore, hafter⟩
    obtain ⟨rfl, hcolon, hcolon'⟩ := splitOn_eq_pair_iff.1 hcut
    obtain ⟨lead, inner, gap, rfl, hlead, hcondition, hgap⟩ := exists_condition hbefore hcolon
    obtain ⟨gap', inner', inner'', trail, rfl, hgap', heffect, htrail⟩ :=
      exists_effect hafter hcolon'
    refine ⟨⟨lead, _, gap, gap', _, trail⟩, ⟨hlead, hcondition, hgap, hgap', heffect, htrail⟩,
      rfl, ?_⟩
    simp [Statement.rule]
  · rintro ⟨s, hs, rfl, rfl⟩
    refine ⟨s.lead ++ s.condition.text ++ s.gap, s.gap' ++ s.effect.text ++ s.trail,
      splitOn_eq_pair_iff.2 ⟨rfl, ?_, ?_⟩, ?_, ?_⟩
    · simp [hs.lead.colon, hs.condition.colon, hs.gap.colon]
    · simp [hs.gap'.colon, hs.effect.colon, hs.trail.colon]
    · simpa [Statement.rule] using words_condition hs.lead hs.condition hs.gap
    · simpa [Statement.rule] using words_effect hs.gap' hs.effect hs.trail

theorem spells_append_gap {line gap : List Char} {rule : Rule} (hgap : IsGap gap) :
    Spells (line ++ gap) rule ↔ Spells line rule := by
  constructor
  · rintro ⟨before, after, hcut, hbefore, hafter⟩
    obtain ⟨hline, hcolon, hcolon'⟩ := splitOn_eq_pair_iff.1 hcut
    obtain ⟨t, -, rfl⟩ | ⟨t, rfl, ht⟩ := List.append_eq_append_iff.1 hline
    · exact absurd (by simp) hgap.colon
    · cases t with
      | nil =>
        obtain rfl : gap = ':' :: after := ht.symm
        exact absurd List.mem_cons_self hgap.colon
      | cons c t =>
        rw [List.cons_append, List.cons.injEq] at ht
        obtain ⟨rfl, rfl⟩ := ht
        rw [words_append_gap hgap] at hafter
        have ht : ':' ∉ t := fun hm ↦ hcolon' (List.mem_append_left gap hm)
        exact ⟨before, t, splitOn_eq_pair_iff.2 ⟨rfl, hcolon, ht⟩, hbefore, hafter⟩
  · rintro ⟨before, after, hcut, hbefore, hafter⟩
    obtain ⟨rfl, hcolon, hcolon'⟩ := splitOn_eq_pair_iff.1 hcut
    refine ⟨before, after ++ gap, splitOn_eq_pair_iff.2 ⟨by simp, hcolon, ?_⟩, hbefore, ?_⟩
    · simp [hcolon', hgap.colon]
    · rw [words_append_gap hgap, hafter]

theorem ofLine_ok_iff {line : String} {rule : Rule} :
    Rule.ofLine line = .ok rule ↔ ∃ s, read line.toList = .ok s ∧ s.rule = rule := by
  simp only [Rule.ofLine, ofLine]
  cases read line.toList <;> simp [Except.mapError, Except.map]

theorem ofLine_eq_ok_iff {line : String} {rule : Rule} :
    Rule.ofLine line = .ok rule ↔ Spells line.toList rule := by
  rw [ofLine_ok_iff, spells_iff]
  simp only [read_ok_iff, and_assoc]

end OneTape.Statement
