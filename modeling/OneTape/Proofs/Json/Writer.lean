import OneTape.Proofs.Json.Codec

namespace OneTape.Json

open Text

def Printable (s : List Char) : Prop := ∀ c ∈ s, 0x20 ≤ c.toNat

instance (s : List Char) : Decidable (Printable s) := List.decidableBAll _ s

variable {s t : List Char}

theorem printable_append : Printable (s ++ t) ↔ Printable s ∧ Printable t := List.forall_mem_append

theorem printable_cons {c : Char} : Printable (c :: s) ↔ 0x20 ≤ c.toNat ∧ Printable s :=
  List.forall_mem_cons

theorem printable_hexDigit (n : Nat) : 0x20 ≤ (hexDigit n).toNat := by
  have hdigit : ∀ d < 16, 0x20 ≤ (Nat.digitChar d).toNat := by decide
  exact hdigit (n % 16) (Nat.mod_lt n (by decide))

theorem printable_escape (c : Char) : Printable (escape c) := by
  unfold escape
  split
  case h_8 =>
    split
    case isTrue =>
      have hhigh := printable_hexDigit (c.toNat / 16)
      have hlow := printable_hexDigit c.toNat
      simp [Printable, hhigh, hlow]
    case isFalse h => simpa [Printable] using h
  all_goals decide

theorem printable_writeString (x : String) : Printable (writeString x).toList := by
  have hcontent : Printable (x.toList.flatMap escape) := fun d hd ↦ by
    obtain ⟨c, -, hdc⟩ := List.mem_flatMap.1 hd
    exact printable_escape c d hdc
  rw [toList_writeString]
  exact printable_cons.2 ⟨by decide, printable_append.2 ⟨hcontent, by decide⟩⟩

theorem printable_writeNatural (n : Nat) : Printable (writeNatural n).toList := by
  intro c hc
  rw [toList_writeNatural] at hc
  have hdigit := isDigit_of_mem_toDigits hc
  simp only [Char.isDigit, Bool.and_eq_true, decide_eq_true_eq, ge_iff_le] at hdigit
  exact Nat.le_trans (by decide) (UInt32.le_iff_toNat_le.1 hdigit.1)

theorem printable_writeOption {α : Type} {write : α → String}
    (h : ∀ x, Printable (write x).toList) (x? : Option α) :
    Printable (writeOption write x?).toList := by
  cases x? with
  | none => simp only [writeOption, writeNull]; decide
  | some x => exact h x

theorem printable_intercalate {parts : List (List Char)} (h : ∀ part ∈ parts, Printable part) :
    Printable ([','].intercalate parts) := by
  cases parts with
  | nil => intro c hc; cases hc
  | cons part parts =>
    obtain ⟨hpart, hparts⟩ := List.forall_mem_cons.1 h
    rw [intercalate_comma, printable_append]
    refine ⟨hpart, fun c hc ↦ ?_⟩
    obtain ⟨next, hnext, hc⟩ := List.mem_flatMap.1 hc
    exact printable_cons.2 ⟨by decide, hparts next hnext⟩ c hc

theorem printable_writeArray {items : List String} (h : ∀ item ∈ items, Printable item.toList) :
    Printable (writeArray items).toList := by
  rw [toList_writeArray]
  refine printable_cons.2 ⟨by decide, printable_append.2 ⟨printable_intercalate ?_, by decide⟩⟩
  simpa using h

theorem printable_writeObject {members : List (String × String)}
    (h : ∀ member ∈ members, Printable member.2.toList) :
    Printable (writeObject members).toList := by
  rw [toList_writeObject]
  refine printable_cons.2 ⟨by decide, printable_append.2 ⟨printable_intercalate ?_, by decide⟩⟩
  intro part hpart
  obtain ⟨member, hmember, rfl⟩ := List.mem_map.1 hpart
  exact printable_append.2 ⟨printable_writeString _, printable_cons.2 ⟨by decide, h member hmember⟩⟩

/-- The value and what stands behind it are known from the whole text, if what stands behind it
does not make a number longer. -/
def Tells {α : Type} (write : α → String) : Prop :=
  ∀ x y r r', Breaks inNumber r → Breaks inNumber r' →
    (write x).toList ++ r = (write y).toList ++ r' → x = y ∧ r = r'

section Tells

variable {α : Type} {write : α → String}

theorem Codec.tells {codec : Codec α} (h : ∀ x, codec.Restores x) : Tells codec.write := by
  intro x y r r' hr hr' htext
  have hread := (h x).read_write hr
  rw [htext, (h y).read_write hr'] at hread
  cases hread
  exact ⟨rfl, rfl⟩

theorem tells_writeString : Tells writeString :=
  show Tells Codec.string.write from Codec.tells Codec.string_restores

theorem tells_writeStrings : Tells (Codec.list Codec.string).write :=
  Codec.tells fun _ ↦ Codec.list_restores fun x _ ↦ Codec.string_restores x

/-- Unlike a reader, which takes only numbers of one word, the text of a number tells any number. -/
theorem tells_writeNatural : Tells writeNatural := by
  intro n k r r' hr hr' htext
  rw [toList_writeNatural, toList_writeNatural] at htext
  have hn := readDigits_append .endInValue (isWhole_toDigits n).1 (breaks_isDigit hr)
  have hk := readDigits_append .endInValue (isWhole_toDigits k).1 (breaks_isDigit hr')
  rw [htext, hk] at hn
  injection hn with hn
  injection hn with hdigits hrest
  refine ⟨?_, hrest.symm⟩
  rw [← decimalValue_toDigits n, ← decimalValue_toDigits k, hdigits]

theorem Tells.option (h : Tells write) (hn : ∀ x, ∃ c s, (write x).toList = c :: s ∧ c ≠ 'n') :
    Tells (writeOption write) := by
  have hnull (x : α) (r r' : List Char) : (write x).toList ++ r ≠ writeNull.toList ++ r' := by
    obtain ⟨c, s, hx, hc⟩ := hn x
    have hword : writeNull.toList = ['n', 'u', 'l', 'l'] := rfl
    rw [hx, hword]
    exact fun he ↦ hc (List.cons.inj he).1
  intro x? y? r r' hr hr' htext
  cases x? with
  | none =>
    cases y? with
    | none => exact ⟨rfl, List.append_cancel_left htext⟩
    | some y => exact absurd htext.symm (hnull y r' r)
  | some x =>
    cases y? with
    | none => exact absurd htext (hnull x r r')
    | some y =>
      obtain ⟨rfl, hrest⟩ := h x y r r' hr hr' htext
      exact ⟨rfl, hrest⟩

theorem tells_writeOption_writeNatural : Tells (writeOption writeNatural) := by
  refine tells_writeNatural.option fun n ↦ ?_
  obtain ⟨d, ds, hds, hd, -⟩ := head_toDigits n
  refine ⟨d, ds, (toList_writeNatural n).trans hds, ?_⟩
  rintro rfl
  cases hd

def memberThen (key value : String) (rest : List Char) : List Char :=
  (writeString key).toList ++ ':' :: (value.toList ++ rest)

theorem Tells.member (h : Tells write) {key : String} {x y : α} {r r' : List Char}
    (hr : Breaks inNumber r) (hr' : Breaks inNumber r')
    (htext : memberThen key (write x) r = memberThen key (write y) r') : x = y ∧ r = r' :=
  h x y r r' hr hr' (List.cons.inj (List.append_cancel_left htext)).2

end Tells

end OneTape.Json
