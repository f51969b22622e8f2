import Mathlib.Order.Interval.Set.Basic
import Mathlib.Order.Monotone.Basic
import OneTape.Proofs.Program.Decision

namespace OneTape.Program

open Set

def Holds (p : Program) (state symbol : String) (rule : Rule) (row : Nat) : Prop :=
  p.slot? row = some (.filled rule) ∧ rule.state = state ∧ rule.input = symbol

/-- Among some rows, this is the first that holds a rule with the key. -/
structure FirstIn (rows : Set Nat) (p : Program) (state symbol : String) (rule : Rule)
    (row : Nat) : Prop where
  mem : row ∈ rows
  holds : p.Holds state symbol rule row
  first : ∀ j ∈ rows, j < row → ∀ r, ¬ p.Holds state symbol r j

variable {p q : Program} {state symbol : String} {rule rule' : Rule} {row row' i : Nat}
  {rows : Set Nat} {slot : Slot}

theorem holds_iff : p.Holds state symbol rule row ↔
    ∃ slot, p.slot? row = some slot ∧ slot.firing? state symbol = some rule := by
  simp only [Holds, Slot.firing?_eq_some_iff, Rule.fires_iff]
  constructor
  · rintro ⟨hslot, hkey⟩
    exact ⟨_, hslot, rfl, hkey⟩
  · rintro ⟨slot, hslot, rfl, hkey⟩
    exact ⟨hslot, hkey⟩

theorem Holds.lt_size (h : p.Holds state symbol rule row) : row < p.size :=
  (List.getElem?_eq_some_iff.1 h.1).1

theorem holds_congr (h : q.slot? row' = p.slot? row) :
    q.Holds state symbol rule row' ↔ p.Holds state symbol rule row := by
  rw [Holds, Holds, h]

theorem FirstIn.unique (h : p.FirstIn rows state symbol rule row)
    (h' : p.FirstIn rows state symbol rule' row') : rule = rule' ∧ row = row' := by
  obtain hlt | rfl | hlt := Nat.lt_trichotomy row row'
  · exact absurd h.holds (h'.first row h.mem hlt rule)
  · have hslot := h.holds.1.symm.trans h'.holds.1
    cases hslot
    exact ⟨rfl, rfl⟩
  · exact absurd h'.holds (h.first row' h'.mem hlt rule')

theorem firstIn_of_lookup (h : p.lookup state symbol = some (rule, row)) :
    p.FirstIn univ state symbol rule row := by
  obtain ⟨hslot, hfires, hfirst⟩ := lookupIn_eq_some h
  refine ⟨mem_univ row, ⟨hslot, Rule.fires_iff.1 hfires⟩, ?_⟩
  rintro j - hj r ⟨hr, hkey⟩
  have hnot := hfirst j hj r hr
  rw [Rule.fires_iff.2 hkey] at hnot
  cases hnot

theorem Holds.exists_lookup (h : p.Holds state symbol rule row) :
    ∃ found, p.lookup state symbol = some found := by
  obtain ⟨slot, hslot, hfiring⟩ := holds_iff.1 h
  have hfound : (p.slots.findSome? (Slot.firing? state symbol)).isSome = true :=
    List.findSome?_isSome_iff.2 ⟨slot, List.mem_of_getElem? hslot, by rw [hfiring]; rfl⟩
  rw [← lookup_map_fst_eq, Option.isSome_map] at hfound
  exact Option.isSome_iff_exists.1 hfound

theorem lookup_eq_some_iff :
    p.lookup state symbol = some (rule, row) ↔ p.FirstIn univ state symbol rule row := by
  refine ⟨firstIn_of_lookup, fun h ↦ ?_⟩
  obtain ⟨⟨rule', row'⟩, hfound⟩ := h.holds.exists_lookup
  obtain ⟨rfl, rfl⟩ := h.unique (firstIn_of_lookup hfound)
  exact hfound

theorem lookup_eq_none_iff :
    p.lookup state symbol = none ↔ ∀ rule row, ¬ p.Holds state symbol rule row := by
  constructor
  · intro h rule row hholds
    obtain ⟨found, hfound⟩ := hholds.exists_lookup
    rw [h] at hfound
    cases hfound
  · intro h
    refine Option.eq_none_iff_forall_ne_some.2 ?_
    rintro ⟨rule, row⟩ hfound
    exact h rule row (lookup_eq_some_iff.1 hfound).holds

theorem firstIn_congr (h : ∀ j ∈ rows, q.slot? j = p.slot? j) :
    q.FirstIn rows state symbol rule row ↔ p.FirstIn rows state symbol rule row := by
  constructor
  · rintro ⟨hmem, hholds, hfirst⟩
    refine ⟨hmem, (holds_congr (h row hmem)).1 hholds, fun j hj hlt r hr ↦ ?_⟩
    exact hfirst j hj hlt r ((holds_congr (h j hj)).2 hr)
  · rintro ⟨hmem, hholds, hfirst⟩
    refine ⟨hmem, (holds_congr (h row hmem)).2 hholds, fun j hj hlt r hr ↦ ?_⟩
    exact hfirst j hj hlt r ((holds_congr (h j hj)).1 hr)

/-- Rows that keep their order are found in the place that they come to. -/
theorem firstIn_shift {f : Nat → Nat} (hf : StrictMono f)
    (h : ∀ j, q.slot? j = p.slot? (f j)) :
    q.FirstIn univ state symbol rule row ↔ p.FirstIn (range f) state symbol rule (f row) := by
  constructor
  · rintro ⟨-, hholds, hfirst⟩
    refine ⟨mem_range_self row, (holds_congr (h row)).1 hholds, ?_⟩
    rintro _ ⟨j, rfl⟩ hlt r hr
    exact hfirst j (mem_univ j) (hf.lt_iff_lt.1 hlt) r ((holds_congr (h j)).2 hr)
  · rintro ⟨-, hholds, hfirst⟩
    refine ⟨mem_univ row, (holds_congr (h row)).2 hholds, fun j _ hlt r hr ↦ ?_⟩
    exact hfirst (f j) (mem_range_self j) (hf hlt) r ((holds_congr (h j)).1 hr)

/-- The first row is in front of `i`, or it is row `i`, or it is behind it. -/
theorem firstIn_split (i : Nat) : p.FirstIn univ state symbol rule row ↔
    p.FirstIn (Iio i) state symbol rule row ∨
      (∀ j < i, ∀ r, ¬ p.Holds state symbol r j) ∧
        (p.Holds state symbol rule i ∧ row = i ∨
          (∀ r, ¬ p.Holds state symbol r i) ∧ p.FirstIn (Ioi i) state symbol rule row) := by
  constructor
  · rintro ⟨-, hholds, hfirst⟩
    obtain hlt | rfl | hlt := Nat.lt_trichotomy row i
    · exact .inl ⟨hlt, hholds, fun j _ ↦ hfirst j (mem_univ j)⟩
    · exact .inr ⟨fun j ↦ hfirst j (mem_univ j), .inl ⟨hholds, rfl⟩⟩
    · refine .inr ⟨fun j hj ↦ hfirst j (mem_univ j) (hj.trans hlt), .inr ⟨?_, ?_⟩⟩
      · exact hfirst i (mem_univ i) hlt
      · exact ⟨hlt, hholds, fun j _ ↦ hfirst j (mem_univ j)⟩
  · rintro (⟨hmem, hholds, hfirst⟩ | ⟨hbefore, ⟨hholds, rfl⟩ | ⟨hnot, hmem, hholds, hfirst⟩⟩)
    · exact ⟨mem_univ row, hholds, fun j _ hlt ↦ hfirst j (hlt.trans hmem) hlt⟩
    · exact ⟨mem_univ row, hholds, fun j _ ↦ hbefore j⟩
    · refine ⟨mem_univ row, hholds, fun j _ hlt ↦ ?_⟩
      obtain hj | rfl | hj := Nat.lt_trichotomy j i
      · exact hbefore j hj
      · exact hnot
      · exact hfirst j hj hlt

theorem firstIn_before :
    p.FirstIn (Iio i) state symbol rule row ↔
      p.lookup state symbol = some (rule, row) ∧ row < i := by
  rw [lookup_eq_some_iff]
  constructor
  · exact fun h ↦ ⟨(firstIn_split i).2 (.inl h), h.mem⟩
  · rintro ⟨⟨-, hholds, hfirst⟩, hlt⟩
    exact ⟨hlt, hholds, fun j _ ↦ hfirst j (mem_univ j)⟩

/-- Where a row was before row `i` was taken out. -/
def rowBefore (i row : Nat) : Nat := if row < i then row else row + 1

theorem strictMono_rowBefore (i : Nat) : StrictMono (rowBefore i) := by
  intro j k h
  unfold rowBefore
  split <;> split <;> omega

theorem eq_rowBefore_iff {old : Nat} :
    old = rowBefore i row ↔ old ≠ i ∧ row = if old < i then old else old - 1 := by
  unfold rowBefore
  split <;> split <;> omega

theorem range_rowBefore (i : Nat) : range (rowBefore i) = {i}ᶜ := by
  ext old
  rw [mem_range, mem_compl_singleton_iff]
  constructor
  · rintro ⟨row, rfl⟩
    exact (eq_rowBefore_iff.1 rfl).1
  · intro h
    exact ⟨_, (eq_rowBefore_iff.2 ⟨h, rfl⟩).symm⟩

theorem slot?_eraseIdx (p : Program) (i j : Nat) :
    (Program.mk (p.slots.eraseIdx i)).slot? j = p.slot? (rowBefore i j) := by
  rw [slot?, List.getElem?_eraseIdx, rowBefore]
  split <;> rfl

theorem lookup_eraseIdx :
    (Program.mk (p.slots.eraseIdx i)).lookup state symbol = some (rule, row) ↔
      ∃ old, p.FirstIn {i}ᶜ state symbol rule old ∧ row = if old < i then old else old - 1 := by
  rw [lookup_eq_some_iff, firstIn_shift (strictMono_rowBefore i) (p.slot?_eraseIdx i), range_rowBefore]
  constructor
  · exact fun h ↦ ⟨rowBefore i row, h, (eq_rowBefore_iff.1 rfl).2⟩
  · rintro ⟨old, h, hrow⟩
    rwa [← eq_rowBefore_iff.2 ⟨h.mem, hrow⟩]

/-- Putting a slot into row `i` leaves what is found in front of it and what is behind it. -/
theorem lookup_of_slot (hslot : q.slot? i = some slot) (hrest : ∀ j ≠ i, q.slot? j = p.slot? j) :
    q.lookup state symbol = some (rule, row) ↔
      p.lookup state symbol = some (rule, row) ∧ row < i ∨
        (∀ j < i, ∀ r, ¬ p.Holds state symbol r j) ∧
          (slot.firing? state symbol = some rule ∧ row = i ∨
            slot.firing? state symbol = none ∧ p.FirstIn (Ioi i) state symbol rule row) := by
  have hbefore : (∀ j < i, ∀ r, ¬ q.Holds state symbol r j) ↔
      ∀ j < i, ∀ r, ¬ p.Holds state symbol r j := by
    refine forall₃_congr fun j hj r ↦ ?_
    rw [holds_congr (hrest j hj.ne)]
  have hat : ∀ r, q.Holds state symbol r i ↔ slot.firing? state symbol = some r := by
    intro r
    simp [holds_iff, hslot]
  have hnone : (∀ r, ¬ slot.firing? state symbol = some r) ↔ slot.firing? state symbol = none :=
    Option.eq_none_iff_forall_ne_some.symm
  have hfront : q.FirstIn (Iio i) state symbol rule row ↔ p.FirstIn (Iio i) state symbol rule row :=
    firstIn_congr fun j hj ↦ hrest j (Nat.ne_of_lt hj)
  have hback : q.FirstIn (Ioi i) state symbol rule row ↔ p.FirstIn (Ioi i) state symbol rule row :=
    firstIn_congr fun j hj ↦ hrest j (Nat.ne_of_gt hj)
  rw [lookup_eq_some_iff, firstIn_split i, hbefore, hfront, hback, firstIn_before]
  simp only [hat, hnone]

theorem slot?_append (p : Program) (slot : Slot) :
    (Program.mk (p.slots ++ [slot])).slot? p.size = some slot := by
  simp [slot?, size]

theorem slot?_append_of_ne {j : Nat} (slot : Slot) (h : j ≠ p.size) :
    (Program.mk (p.slots ++ [slot])).slot? j = p.slot? j := by
  simp only [slot?, size] at h ⊢
  obtain hlt | hlt := Nat.lt_or_gt_of_ne h
  · exact List.getElem?_append_left hlt
  · rw [List.getElem?_eq_none (by simp; omega), List.getElem?_eq_none (by omega)]

theorem lookup_append :
    (Program.mk (p.slots ++ [slot])).lookup state symbol = some (rule, row) ↔
      p.lookup state symbol = some (rule, row) ∨
        p.lookup state symbol = none ∧ slot.firing? state symbol = some rule ∧ row = p.size := by
  have hbehind : ¬ p.FirstIn (Ioi p.size) state symbol rule row :=
    fun h ↦ absurd h.holds.lt_size (Nat.lt_asymm h.mem)
  have hlt : p.lookup state symbol = some (rule, row) → row < p.size :=
    fun h ↦ (lookup_eq_some_iff.1 h).holds.lt_size
  have hall : (∀ j < p.size, ∀ r, ¬ p.Holds state symbol r j) ↔ p.lookup state symbol = none := by
    rw [lookup_eq_none_iff]
    exact ⟨fun h r j hr ↦ h j hr.lt_size r hr, fun h j _ r ↦ h r j⟩
  rw [lookup_of_slot (p.slot?_append slot) fun j ↦ slot?_append_of_ne slot, hall,
    and_iff_left_of_imp hlt]
  simp only [hbehind, and_false, or_false]

theorem erase?_of_lt (h : i < p.size) : p.erase? i = some ⟨p.slots.eraseIdx i⟩ := if_pos h

theorem erase?_of_size_le (h : p.size ≤ i) : p.erase? i = none := if_neg (by omega)

theorem put_of_lt (slot : Slot) (h : i < p.size) :
    p.put slot (some i) = (i, ⟨p.slots.set i slot⟩) := if_pos h

theorem put_of_size_le (slot : Slot) {row : Option Nat} (h : ∀ i, row = some i → p.size ≤ i) :
    p.put slot row = (p.size, ⟨p.slots ++ [slot]⟩) := by
  cases row with
  | none => rfl
  | some i =>
    have hi : ¬ i < p.size := Nat.not_lt.2 (h i rfl)
    exact if_neg hi

/-- A key finds the first row that holds a rule for it. Once a row is taken out it finds the first
of the others, with those behind it a place further up. Once a row is overwritten it finds what it
found in front of this row, or else the rule put there, or else the first row behind. A row put
behind the last one is found only by a key that found nothing. -/
theorem lookup_edited (p : Program) (state symbol : String) :
    (∀ rule row, p.lookup state symbol = some (rule, row) ↔
      p.FirstIn univ state symbol rule row) ∧
    (p.lookup state symbol = none ↔ ∀ rule row, ¬ p.Holds state symbol rule row) ∧
    (∀ i < p.size, ∃ q, p.erase? i = some q ∧ ∀ rule row,
      q.lookup state symbol = some (rule, row) ↔
        ∃ old, p.FirstIn {i}ᶜ state symbol rule old ∧ row = if old < i then old else old - 1) ∧
    (∀ i < p.size, ∀ slot, ∃ q, p.put slot (some i) = (i, q) ∧ q.size = p.size ∧
      q.slot? i = some slot ∧ (∀ j ≠ i, q.slot? j = p.slot? j) ∧ ∀ rule row,
        q.lookup state symbol = some (rule, row) ↔
          p.lookup state symbol = some (rule, row) ∧ row < i ∨
            (∀ j < i, ∀ r, ¬ p.Holds state symbol r j) ∧
              (slot.firing? state symbol = some rule ∧ row = i ∨
                slot.firing? state symbol = none ∧ p.FirstIn (Ioi i) state symbol rule row)) ∧
    (∀ slot place, (∀ i, place = some i → p.size ≤ i) → ∃ q, p.put slot place = (p.size, q) ∧
      q.slots = p.slots ++ [slot] ∧ ∀ rule row,
        q.lookup state symbol = some (rule, row) ↔
          p.lookup state symbol = some (rule, row) ∨
            p.lookup state symbol = none ∧ slot.firing? state symbol = some rule ∧
              row = p.size) ∧
    ∀ i, p.size ≤ i → p.erase? i = none := by
  refine ⟨fun rule row ↦ lookup_eq_some_iff, lookup_eq_none_iff, ?_, ?_, ?_,
    fun i ↦ erase?_of_size_le⟩
  · intro i hi
    exact ⟨_, erase?_of_lt hi, fun rule row ↦ lookup_eraseIdx⟩
  · intro i hi slot
    have hslot : (Program.mk (p.slots.set i slot)).slot? i = some slot :=
      List.getElem?_set_self hi
    have hrest : ∀ j ≠ i, (Program.mk (p.slots.set i slot)).slot? j = p.slot? j :=
      fun j hj ↦ List.getElem?_set_ne hj.symm
    exact ⟨_, put_of_lt slot hi, List.length_set, hslot, hrest,
      fun rule row ↦ lookup_of_slot hslot hrest⟩
  · intro slot place hplace
    exact ⟨_, put_of_size_le slot hplace, rfl, fun rule row ↦ lookup_append⟩

theorem lookup_edited_shadowed :
    let first : Rule := ⟨"A", "0", "B", "1", .right⟩
    let second : Rule := ⟨"A", "0", "C", "0", .halt⟩
    let p : Program := ⟨[.filled first, .vacant, .filled second]⟩
    p.lookup "A" "0" = some (first, 0) ∧
    (∃ q, p.erase? 0 = some q ∧ q.lookup "A" "0" = some (second, 1)) ∧
    (∃ q, p.put .vacant (some 0) = (0, q) ∧ q.lookup "A" "0" = some (second, 2)) ∧
    (∃ q, p.put (.filled second) (some 7) = (3, q) ∧ q.lookup "A" "0" = some (first, 0)) ∧
    p.erase? 3 = none := by
  intro first second p
  obtain ⟨hfound, -, herase, hput, hbehind, hnone⟩ := p.lookup_edited "A" "0"
  have hsecond : ∀ rows : Set Nat, 0 ∉ rows → 2 ∈ rows → p.FirstIn rows "A" "0" second 2 := by
    intro rows h0 h2
    refine ⟨h2, ⟨rfl, rfl, rfl⟩, ?_⟩
    rintro j hj hlt r ⟨hslot, -⟩
    obtain rfl | rfl : j = 0 ∨ j = 1 := by omega
    · exact h0 hj
    · cases hslot
  have hfirst : p.lookup "A" "0" = some (first, 0) :=
    (hfound first 0).2 ⟨mem_univ 0, ⟨rfl, rfl, rfl⟩, fun j _ hlt ↦ absurd hlt (Nat.not_lt_zero j)⟩
  refine ⟨hfirst, ?_, ?_, ?_, hnone 3 le_rfl⟩
  · obtain ⟨q, hq, hlookup⟩ := herase 0 (by decide)
    exact ⟨q, hq, (hlookup second 1).2 ⟨2, hsecond _ (by simp) (by simp), rfl⟩⟩
  · obtain ⟨q, hq, -, -, -, hlookup⟩ := hput 0 (by decide) .vacant
    refine ⟨q, hq, (hlookup second 2).2 (.inr ⟨?_, .inr ⟨rfl, hsecond _ (by simp) (by simp)⟩⟩)⟩
    exact fun j hj ↦ absurd hj (Nat.not_lt_zero j)
  · obtain ⟨q, hq, -, hlookup⟩ := hbehind (.filled second) (some 7) (by simp [p, size])
    exact ⟨q, hq, (hlookup first 0).2 (.inl hfirst)⟩

end OneTape.Program
