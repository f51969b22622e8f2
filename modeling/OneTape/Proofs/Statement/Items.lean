import OneTape.Proofs.Statement.Reader

namespace OneTape.Statement

open Text

/-- What a line holds besides white space: colons, and runs of other characters that are as long as
can be. Each has a number of characters in front of it. -/
inductive Item where
  | colon (offset : Nat)
  | token (offset : Nat) (name : List Char)
deriving DecidableEq, Repr

def Item.offset : Item → Nat
  | colon offset | token offset _ => offset

def itemsFrom (offset : Nat) (inside : Bool) : List Char → List Item
  | [] => []
  | c :: s =>
    if isTokenChar c then
      if inside then itemsFrom (offset + 1) true s
      else .token offset (c :: s.takeWhile isTokenChar) :: itemsFrom (offset + 1) true s
    else if c = ':' then .colon offset :: itemsFrom (offset + 1) false s
    else itemsFrom (offset + 1) false s

def items (line : List Char) : List Item := itemsFrom 0 false line

example : items " Q0 1:LR".toList =
    [.token 1 ['Q', '0'], .token 4 ['1'], .colon 5, .token 6 ['L', 'R']] := by decide

section Items

variable {s name gap rest : List Char} {offset : Nat}

theorem itemsFrom_gap (h : IsGap gap) :
    itemsFrom offset false (gap ++ rest) = itemsFrom (offset + gap.length) false rest := by
  induction gap generalizing offset with
  | nil => rfl
  | cons c gap ih =>
    obtain ⟨hc, hgap⟩ := List.forall_mem_cons.1 h
    have hcolon : c ≠ ':' := fun he ↦ h.colon (he ▸ List.mem_cons_self)
    simp only [List.cons_append, itemsFrom, isTokenChar_of_isBlank hc, hcolon, if_false,
      Bool.false_eq_true, ih hgap, List.length_cons, Nat.add_assoc, Nat.add_comm 1]

theorem itemsFrom_inside (h : ∀ c ∈ name, isTokenChar c = true) (hrest : Breaks isTokenChar rest) :
    itemsFrom offset true (name ++ rest) = itemsFrom (offset + name.length) false rest := by
  induction name generalizing offset with
  | nil =>
    cases rest with
    | nil => rfl
    | cons c rest => simp [itemsFrom, breaks_cons.1 hrest]
  | cons c name ih =>
    obtain ⟨hc, hname⟩ := List.forall_mem_cons.1 h
    simp only [List.cons_append, itemsFrom, hc, if_true, ih hname, List.length_cons, Nat.add_assoc,
      Nat.add_comm 1]

theorem itemsFrom_token (h : IsName name) (hrest : Breaks isTokenChar rest) :
    itemsFrom offset false (name ++ rest) =
      .token offset name :: itemsFrom (offset + name.length) false rest := by
  obtain ⟨c, name, rfl⟩ := List.exists_cons_of_ne_nil h.1
  obtain ⟨hc, hname⟩ := List.forall_mem_cons.1 h.2
  obtain ⟨htake, -⟩ := takeWhile_dropWhile_iff.2 ⟨hname, rfl, hrest⟩
  simp [itemsFrom, hc, htake, itemsFrom_inside hname hrest, Nat.add_assoc, Nat.add_comm 1]

theorem itemsFrom_colon :
    itemsFrom offset false (':' :: rest) = .colon offset :: itemsFrom (offset + 1) false rest := by
  simp [itemsFrom, isTokenChar]

theorem first_item (h : Breaks isBlank s) :
    (s = [] ∧ (itemsFrom offset false s)[0]? = none) ∨
    (∃ rest, s = ':' :: rest ∧ (itemsFrom offset false s)[0]? = some (.colon offset)) ∨
    ∃ name rest, s = name ++ rest ∧ IsName name ∧ Breaks isTokenChar rest ∧
      (itemsFrom offset false s)[0]? = some (.token offset name) := by
  cases s with
  | nil => exact .inl ⟨rfl, rfl⟩
  | cons c s =>
    by_cases hc : c = ':'
    · subst hc
      exact .inr (.inl ⟨s, rfl, congrArg (·[0]?) itemsFrom_colon⟩)
    · obtain ⟨hrun, hs, hrest⟩ :=
        (takeWhile_dropWhile_iff (p := isTokenChar) (s := c :: s)).1 ⟨rfl, rfl⟩
      have htoken : isTokenChar c = true := isTokenChar_iff.2 ⟨hc, breaks_cons.1 h⟩
      have hname : IsName ((c :: s).takeWhile isTokenChar) := ⟨by simp [htoken], hrun⟩
      refine .inr (.inr ⟨_, _, hs, hname, hrest, ?_⟩)
      rw [hs, itemsFrom_token hname hrest]
      simp

end Items

end OneTape.Statement
