import OneTape.Program

namespace OneTape

theorem Rule.fires_iff {rule : Rule} {state symbol : String} :
    rule.fires state symbol ↔ rule.state = state ∧ rule.input = symbol := by
  simp [Rule.fires]

namespace Program

variable {state symbol : String} {rule : Rule} {row : Nat}

theorem lookupIn_filled_of_fires {slots : List Slot} (h : rule.fires state symbol) :
    lookupIn state symbol (.filled rule :: slots) = some (rule, 0) := by
  simp [lookupIn, h]

theorem lookupIn_cons {slot : Slot} {slots : List Slot}
    (h : ∀ r, slot = .filled r → r.fires state symbol = false) :
    lookupIn state symbol (slot :: slots) =
      (lookupIn state symbol slots).map fun (rule, row) ↦ (rule, row + 1) := by
  cases slot with
  | vacant => rfl
  | filled r => simp [lookupIn, h r rfl]

theorem lookupIn_eq_some {slots : List Slot} (h : lookupIn state symbol slots = some (rule, row)) :
    slots[row]? = some (.filled rule) ∧ rule.fires state symbol ∧
      ∀ j < row, ∀ r, slots[j]? = some (.filled r) → r.fires state symbol = false := by
  induction slots generalizing row with
  | nil => simp [lookupIn] at h
  | cons slot slots ih =>
    by_cases hs : ∀ r, slot = .filled r → r.fires state symbol = false
    · rw [lookupIn_cons hs, Option.map_eq_some_iff] at h
      obtain ⟨⟨rule', row'⟩, hl, he⟩ := h
      cases he
      obtain ⟨hrow, hfires, hfirst⟩ := ih hl
      refine ⟨hrow, hfires, fun j hj r hr ↦ ?_⟩
      cases j with
      | zero => exact hs r (by simpa using hr)
      | succ j => exact hfirst j (by omega) r hr
    · simp only [Classical.not_forall, Bool.not_eq_false] at hs
      obtain ⟨r, rfl, hr⟩ := hs
      rw [lookupIn_filled_of_fires hr] at h
      cases h
      exact ⟨rfl, hr, fun j hj ↦ by omega⟩

theorem lookup_eq_some {p : Program} (h : p.lookup state symbol = some (rule, row)) :
    p.slot? row = some (.filled rule) ∧ rule.fires state symbol := by
  obtain ⟨hrow, hfires, -⟩ := lookupIn_eq_some h
  exact ⟨hrow, hfires⟩

theorem lookup_map_fst (p : Program) (state symbol : String) :
    (p.lookup state symbol).map Prod.fst = p.rules.find? (·.fires state symbol) := by
  obtain ⟨slots⟩ := p
  change (lookupIn state symbol slots).map Prod.fst =
    (slots.filterMap Slot.rule?).find? (·.fires state symbol)
  induction slots with
  | nil => rfl
  | cons slot slots ih =>
    cases slot with
    | vacant =>
      rw [lookupIn_cons (by simp), Option.map_map]
      simpa [Slot.rule?, Function.comp_def] using ih
    | filled r =>
      cases hr : r.fires state symbol with
      | true => simp [lookupIn_filled_of_fires hr, Slot.rule?, hr]
      | false =>
        rw [lookupIn_cons (by simpa using hr), Option.map_map]
        simpa [Slot.rule?, Function.comp_def, hr] using ih

end Program

end OneTape
