import OneTape.Proofs.Statement.Words

namespace OneTape

open Statement Text

variable {line : List Char} {rule rule' : Rule}

structure Rule.Spellable (rule : Rule) : Prop where
  state : IsName rule.state.toList
  input : IsName rule.input.toList
  next : IsName rule.next.toList
  output : IsName rule.output.toList

def Rule.statement (rule : Rule) : Statement where
  lead := []
  condition := ⟨rule.state.toList, [' '], rule.input.toList⟩
  gap := [' ']
  gap' := [' ']
  effect := ⟨rule.next.toList, [' '], rule.output.toList, [' '], rule.action⟩
  trail := []

theorem Rule.rule_statement (rule : Rule) : rule.statement.rule = rule := by
  simp [Rule.statement, Statement.rule]

theorem Rule.text_statement (rule : Rule) : rule.statement.text = rule.text.toList := by
  simp [Rule.statement, Statement.text, Condition.text, Effect.text, Rule.text]

theorem isGap_space : IsGap [' '] := isGap_singleton.2 (by decide)

theorem Rule.Spellable.wellFormed (h : rule.Spellable) : rule.statement.WellFormed where
  lead := isGap_nil
  condition := ⟨h.state, isGap_space, by simp [Rule.statement], h.input⟩
  gap := isGap_space
  gap' := isGap_space
  effect := ⟨h.next, isGap_space, by simp [Rule.statement], h.output, isGap_space,
    by simp [Rule.statement]⟩
  trail := isGap_nil

theorem Rule.Spellable.spells (h : rule.Spellable) : Spells rule.text.toList rule :=
  spells_iff.2 ⟨rule.statement, h.wellFormed, rule.text_statement, rule.rule_statement⟩

theorem Statement.Spells.spellable (h : Spells line rule) : rule.Spellable := by
  obtain ⟨s, hs, -, rfl⟩ := spells_iff.1 h
  refine ⟨?_, ?_, ?_, ?_⟩ <;> simp only [Statement.rule, String.toList_ofList]
  · exact hs.condition.state
  · exact hs.condition.input
  · exact hs.effect.next
  · exact hs.effect.output

theorem Statement.Spells.not_isGap (h : Spells line rule) : ¬ IsGap line := by
  obtain ⟨before, after, hcut, -⟩ := h
  obtain ⟨rfl, -, -⟩ := splitOn_eq_pair_iff.1 hcut
  exact fun hgap ↦ hgap.colon (by simp)

theorem Rule.ofLine_text_iff : Rule.ofLine rule.text = .ok rule ↔ rule.Spellable := by
  rw [ofLine_eq_ok_iff]
  exact ⟨Spells.spellable, Rule.Spellable.spells⟩

theorem Rule.spellable_of_ofLine {line : String} (h : Rule.ofLine line = .ok rule) :
    rule.Spellable :=
  (ofLine_eq_ok_iff.1 h).spellable

theorem Rule.Spellable.text_inj (h : rule.Spellable) (h' : rule'.Spellable) :
    rule.text = rule'.text ↔ rule = rule' := by
  constructor
  · intro htext
    have hrule := Rule.ofLine_text_iff.2 h
    rw [htext, Rule.ofLine_text_iff.2 h'] at hrule
    cases hrule
    rfl
  · rintro rfl
    rfl

/-- A rule is read back from its text just when its names can stand in a statement. Every rule that
a line states is such a rule, and its text tells it from the rules of other lines. -/
theorem Rule.ofLine_text_canonical :
    (∀ rule : Rule, Rule.ofLine rule.text = .ok rule ↔ rule.Spellable) ∧
    (∀ line rule, Rule.ofLine line = .ok rule →
      rule.Spellable ∧ Rule.ofLine rule.text = .ok rule) ∧
    (∀ line line' rule rule', Rule.ofLine line = .ok rule → Rule.ofLine line' = .ok rule' →
      (rule.text = rule'.text ↔ rule = rule')) := by
  refine ⟨fun _ ↦ ofLine_text_iff, ?_, ?_⟩
  · intro line rule h
    have hrule := spellable_of_ofLine h
    exact ⟨hrule, ofLine_text_iff.2 hrule⟩
  · intro line line' rule rule' h h'
    exact (spellable_of_ofLine h).text_inj (spellable_of_ofLine h')

/-- With an empty name beside one that holds a space a rule can have the text of another. -/
example : Rule.ofLine (Rule.mk "" "A B" "C" "D" .halt).text = .ok ⟨"A", "B", "C", "D", .halt⟩ := by
  rfl

end OneTape
