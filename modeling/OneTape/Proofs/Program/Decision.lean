import OneTape.Proofs.Program.Lookup

namespace OneTape

namespace Slot

def firing? (state symbol : String) (slot : Slot) : Option Rule :=
  slot.rule?.filter (·.fires state symbol)

def sharesKey : Slot → Slot → Bool
  | filled rule, filled rule' => rule.fires rule'.state rule'.input
  | _, _ => false

/-- Whether a row behind some others is vacant or has a key that one of them has already. -/
def isDead (front : List Slot) (slot : Slot) : Bool :=
  slot == .vacant || front.any (·.sharesKey slot)

variable {state symbol : String} {slot slot' : Slot} {rule rule' : Rule}

theorem firing?_eq_some_iff :
    slot.firing? state symbol = some rule ↔ slot = .filled rule ∧ rule.fires state symbol := by
  cases slot with
  | vacant => simp [firing?, rule?]
  | filled r =>
    simp only [firing?, rule?, Option.filter_eq_some_iff, Option.some.injEq, filled.injEq]

theorem sharesKey_of_firing? (h : slot.firing? state symbol = some rule)
    (h' : slot'.firing? state symbol = some rule') : slot.sharesKey slot' = true := by
  obtain ⟨rfl, hfires⟩ := firing?_eq_some_iff.1 h
  obtain ⟨rfl, hfires'⟩ := firing?_eq_some_iff.1 h'
  obtain ⟨rfl, rfl⟩ := Rule.fires_iff.1 hfires'
  exact hfires

theorem exists_firing? (h : slot.sharesKey slot' = true)
    (h' : slot'.firing? state symbol = some rule') :
    ∃ rule, slot.firing? state symbol = some rule := by
  obtain ⟨rfl, hfires'⟩ := firing?_eq_some_iff.1 h'
  cases slot with
  | vacant => cases h
  | filled r =>
    obtain ⟨rfl, rfl⟩ := Rule.fires_iff.1 hfires'
    exact ⟨r, firing?_eq_some_iff.2 ⟨rfl, h⟩⟩

end Slot

namespace Program

open Slot

/-- The same rule, if any, decides for every key in both programs. It may be in different rows. -/
def Agrees (p q : Program) : Prop :=
  ∀ state symbol,
    (p.lookup state symbol).map Prod.fst = (q.lookup state symbol).map Prod.fst

def liveSlots (front : List Slot) : List Slot → List Slot
  | [] => []
  | slot :: slots =>
    if slot.isDead front then liveSlots (front ++ [slot]) slots
    else slot :: liveSlots (front ++ [slot]) slots

def pruned (p : Program) : Program := ⟨liveSlots [] p.slots⟩

variable {p q : Program} {front back slots : List Slot} {slot slot' : Slot}

theorem lookup_map_fst_eq (p : Program) (state symbol : String) :
    (p.lookup state symbol).map Prod.fst = p.slots.findSome? (firing? state symbol) := by
  rw [lookup_map_fst, rules]
  induction p.slots with
  | nil => rfl
  | cons slot slots ih =>
    rw [List.findSome?_cons]
    cases slot with
    | vacant => exact ih
    | filled r =>
      change List.find? _ (r :: slots.filterMap rule?) = _
      rw [List.find?_cons, firing?, rule?, Option.filter_some]
      cases r.fires state symbol with
      | false => exact ih
      | true => rfl

theorem agrees_iff : p.Agrees q ↔
    ∀ state symbol, p.slots.findSome? (firing? state symbol) =
      q.slots.findSome? (firing? state symbol) := by
  simp only [Agrees, lookup_map_fst_eq]

theorem Agrees.symm (h : p.Agrees q) : q.Agrees p := fun state symbol ↦ (h state symbol).symm

theorem agrees_dead (h : slot.isDead front = true) (back : List Slot) :
    Agrees ⟨front ++ back⟩ ⟨front ++ slot :: back⟩ := by
  rw [agrees_iff]
  intro state symbol
  simp only [List.findSome?_append, List.findSome?_cons]
  cases hslot : slot.firing? state symbol with
  | none => rfl
  | some rule =>
    obtain ⟨rfl, -⟩ := firing?_eq_some_iff.1 hslot
    obtain ⟨earlier, hmem, hkey⟩ : ∃ earlier ∈ front, earlier.sharesKey (.filled rule) = true := by
      simpa [isDead] using h
    obtain ⟨first, hfirst⟩ := exists_firing? hkey hslot
    have hfront : (front.findSome? (firing? state symbol)).isSome = true :=
      List.findSome?_isSome_iff.2 ⟨earlier, hmem, by rw [hfirst]; rfl⟩
    obtain ⟨found, hfound⟩ := Option.isSome_iff_exists.1 hfront
    rw [hfound, Option.some_or, Option.some_or]

theorem agrees_liveSlots (front slots : List Slot) :
    Agrees ⟨front ++ slots⟩ ⟨front ++ liveSlots front slots⟩ := by
  -- The rows in front stay whole, dead ones too: a row is dead by any row that was before it.
  induction slots generalizing front with
  | nil => exact fun _ _ ↦ rfl
  | cons slot slots ih =>
    have hrest := ih (front ++ [slot])
    simp only [List.append_assoc, List.singleton_append] at hrest
    unfold liveSlots
    split
    case isTrue hdead =>
      intro state symbol
      exact (hrest state symbol).trans ((agrees_dead hdead _).symm state symbol)
    case isFalse => exact hrest

theorem agrees_pruned (p : Program) : p.Agrees p.pruned := agrees_liveSlots [] p.slots

theorem agrees_exchange (h : slot.sharesKey slot' = false) (front back : List Slot) :
    Agrees ⟨front ++ slot :: slot' :: back⟩ ⟨front ++ slot' :: slot :: back⟩ := by
  rw [agrees_iff]
  intro state symbol
  simp only [List.findSome?_append, List.findSome?_cons]
  cases hfirst : slot.firing? state symbol with
  | none => rfl
  | some rule =>
    cases hsecond : slot'.firing? state symbol with
    | none => rfl
    | some rule' =>
      have hkey := sharesKey_of_firing? hfirst hsecond
      rw [h] at hkey
      cases hkey

end Program

end OneTape
