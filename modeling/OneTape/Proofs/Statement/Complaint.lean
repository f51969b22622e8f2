import Mathlib.Data.List.Induction
import OneTape.Proofs.Statement.Grammar
import OneTape.Proofs.Statement.Items

namespace OneTape.Statement

open Text Peg

inductive Need where
  | name
  | colon
  | action
  | nothing
deriving DecidableEq, Repr

def needs : List Need := [.name, .name, .colon, .name, .name, .action, .nothing]

namespace Need

def metBy : Need → Option Item → Bool
  | name, some (.token _ _) => true
  | colon, some (.colon _) => true
  | action, some (.token _ letters) => (Action.ofToken? letters).isSome
  | nothing, none => true
  | _, _ => false

def expected : Need → Expected
  | name => .symbol
  | colon => .statement
  | action => .action
  | nothing => .endOfText

def offset (length : Nat) (item? : Option Item) : Need → Nat
  | colon => 0
  | _ => item?.elim length Item.offset

end Need

structure FirstUnmet (ns : List Need) (is : List Item) (k : Nat) (need : Need) : Prop where
  need_eq : ns[k]? = some need
  unmet : need.metBy is[k]? = false
  met : ∀ j < k, ∀ before : Need, ns[j]? = some before → before.metBy is[j]? = true

def unmet? : List Need → List Item → Option (Need × Option Item)
  | [], _ => none
  | need :: ns, is => if need.metBy is[0]? then unmet? ns is.tail else some (need, is[0]?)

section Unmet

variable {ns : List Need} {is : List Item} {need first : Need} {item? : Option Item} {k : Nat}

theorem firstUnmet_cons_zero : FirstUnmet (first :: ns) is 0 need ↔
    first = need ∧ first.metBy is[0]? = false := by
  constructor
  · rintro ⟨hneed, hunmet, -⟩
    cases hneed
    exact ⟨rfl, hunmet⟩
  · rintro ⟨rfl, hunmet⟩
    exact ⟨rfl, hunmet, fun j hj ↦ by omega⟩

theorem firstUnmet_cons_succ : FirstUnmet (first :: ns) is (k + 1) need ↔
    first.metBy is[0]? = true ∧ FirstUnmet ns is.tail k need := by
  constructor
  · rintro ⟨hneed, hunmet, hmet⟩
    refine ⟨hmet 0 (by omega) first rfl, hneed, by rwa [List.getElem?_tail], ?_⟩
    intro j hj before hbefore
    rw [List.getElem?_tail]
    exact hmet (j + 1) (by omega) before hbefore
  · rintro ⟨hfirst, hneed, hunmet, hmet⟩
    refine ⟨hneed, by rwa [List.getElem?_tail] at hunmet, ?_⟩
    intro j hj before hbefore
    cases j with
    | zero =>
      cases hbefore
      exact hfirst
    | succ j =>
      have h := hmet j (by omega) before hbefore
      rwa [List.getElem?_tail] at h

theorem unmet?_eq_some_iff :
    unmet? ns is = some (need, item?) ↔ ∃ k, FirstUnmet ns is k need ∧ is[k]? = item? := by
  induction ns generalizing is with
  | nil =>
    simp only [unmet?, reduceCtorEq, false_iff]
    rintro ⟨k, ⟨hneed, -, -⟩, -⟩
    cases hneed
  | cons first ns ih =>
    rw [← Nat.or_exists_add_one]
    simp only [firstUnmet_cons_zero, firstUnmet_cons_succ, unmet?]
    split
    case isTrue hmet =>
      simp [hmet, ih]
    case isFalse hunmet =>
      simp [hunmet]

end Unmet

/-- Told of a reader at places of a text of `size` characters, with no white space in front: what it
takes are the items that meet some needs, and it fails for the first of these that is not met. -/
structure Demands {α : Type} (size : Nat) (read : Reader α) (ns : List Need) : Prop where
  ok : ∀ {s x rest offset}, Breaks isBlank s → offset + s.length = size →
    read s = .ok (x, rest) → ∃ offset', offset' + rest.length = size ∧
      ∀ more, unmet? (ns ++ more) (itemsFrom offset false s) =
        unmet? more (itemsFrom offset' false rest)
  error : ∀ {s e offset}, Breaks isBlank s → offset + s.length = size →
    read s = .error e → ∃ need item?, need.expected = e.expected ∧
      item?.elim size Item.offset + e.rest.length = size ∧
      ∀ more, unmet? (ns ++ more) (itemsFrom offset false s) = some (need, item?)

section Demands

variable {α β : Type} {size : Nat} {read : Reader α} {read' : Reader β} {ns ns' : List Need}

theorem exists_unmet (need : Need) {is : List Item} {s : List Char} {item? : Option Item}
    (hitem : is[0]? = item?) (hmet : need.metBy item? = false)
    (hsize : item?.elim size Item.offset + s.length = size) :
    ∃ need' item?, need'.expected = need.expected ∧ item?.elim size Item.offset + s.length = size ∧
      ∀ more, unmet? ([need] ++ more) is = some (need', item?) := by
  refine ⟨need, item?, rfl, hsize, ?_⟩
  intro more
  simp [unmet?, hitem, hmet]

theorem demands_symbol : Demands size readSymbol [.name] where
  ok := by
    intro s name rest offset _ hsize hread
    obtain ⟨hname, rfl, hrest⟩ := readSymbol_ok_iff.1 hread
    rw [List.length_append] at hsize
    refine ⟨offset + name.length, by omega, ?_⟩
    intro more
    rw [itemsFrom_token hname hrest]
    rfl
  error := by
    intro s e offset hs hsize hread
    obtain rfl := readSymbol_error hread
    obtain ⟨rfl, hitem⟩ | ⟨rest, rfl, hitem⟩ | ⟨name, rest, rfl, hname, hrest, -⟩ := first_item hs
    · exact exists_unmet .name hitem rfl rfl
    · exact exists_unmet .name hitem rfl hsize
    · rw [readSymbol_ok_iff.2 ⟨hname, rfl, hrest⟩] at hread
      cases hread

theorem demands_action : Demands size readAction [.action] where
  ok := by
    intro s a rest offset _ hsize hread
    obtain ⟨rfl, hrest⟩ := readAction_ok_iff.1 hread
    rw [List.length_cons] at hsize
    refine ⟨offset + 1, by omega, ?_⟩
    intro more
    have hitems : itemsFrom offset false (a.letter :: rest) =
        .token offset [a.letter] :: itemsFrom (offset + 1) false rest :=
      itemsFrom_token (isName_letter a) hrest
    simp [hitems, unmet?, Need.metBy, Action.ofToken?_letter]
  error := by
    intro s e offset hs hsize hread
    obtain rfl := readAction_error hread
    obtain ⟨rfl, hitem⟩ | ⟨rest, rfl, hitem⟩ | ⟨name, rest, rfl, -, hrest, hitem⟩ := first_item hs
    · exact exists_unmet .action hitem rfl rfl
    · exact exists_unmet .action hitem rfl hsize
    · have hother : Action.ofToken? name = none := by
        cases hact : Action.ofToken? name with
        | none => rfl
        | some a =>
          obtain rfl := Action.ofToken?_eq_some_iff.1 hact
          have hok : readAction (a.letter :: rest) = .ok (a, rest) :=
            readAction_ok_iff.2 ⟨rfl, hrest⟩
          cases hread.symm.trans hok
      exact exists_unmet .action hitem (by simp [Need.metBy, hother]) hsize

theorem demands_colon : Demands size readColon [.colon] where
  ok := by
    intro s x rest offset _ hsize hread
    obtain rfl : s = ':' :: rest := follows_colon.exact hread
    rw [List.length_cons] at hsize
    refine ⟨offset + 1, by omega, ?_⟩
    intro more
    rw [itemsFrom_colon]
    rfl
  error := by
    intro s e offset hs hsize hread
    obtain rfl := readColon_error hread
    obtain ⟨rfl, hitem⟩ | ⟨rest, rfl, -⟩ | ⟨name, rest, rfl, -, -, hitem⟩ := first_item hs
    · exact exists_unmet .colon hitem rfl rfl
    · cases hread
    · exact exists_unmet .colon hitem rfl hsize

theorem demands_end : Demands size readEnd [.nothing] where
  ok := by
    intro s x rest offset _ hsize hread
    cases s with
    | nil =>
      cases hread
      exact ⟨offset, hsize, fun _ ↦ rfl⟩
    | cons c s => cases hread
  error := by
    intro s e offset hs hsize hread
    obtain rfl := readEnd_error hread
    obtain ⟨rfl, -⟩ | ⟨rest, rfl, hitem⟩ | ⟨name, rest, rfl, -, -, hitem⟩ := first_item hs
    · cases hread
    · exact exists_unmet .nothing hitem rfl hsize
    · exact exists_unmet .nothing hitem rfl hsize

theorem Demands.andThen (h : Demands size read ns) (h' : Demands size read' ns') :
    Demands size (andThen read read') (ns ++ ns') where
  ok := by
    intro s x rest offset hs hsize hread
    obtain ⟨⟨y, s₁⟩, hy, hread⟩ := bind_ok_iff.1 hread
    obtain ⟨gap, s₂, hgap, hblank, rfl, hs₂⟩ := readGap_eq s₁
    simp only [hgap] at hread
    obtain ⟨⟨z, s₃⟩, hz, hread⟩ := bind_ok_iff.1 hread
    cases hread
    obtain ⟨offset₁, hsize₁, hunmet⟩ := h.ok hs hsize hy
    rw [List.length_append, ← Nat.add_assoc] at hsize₁
    obtain ⟨offset₂, hsize₂, hunmet'⟩ := h'.ok hs₂ hsize₁ hz
    refine ⟨offset₂, hsize₂, ?_⟩
    intro more
    rw [List.append_assoc, hunmet, itemsFrom_gap hblank, hunmet']
  error := by
    intro s e offset hs hsize hread
    obtain hread | ⟨⟨y, s₁⟩, hy, hread⟩ := bind_error_iff.1 hread
    · obtain ⟨need, item?, hneed, hitem, hunmet⟩ := h.error hs hsize hread
      refine ⟨need, item?, hneed, hitem, ?_⟩
      intro more
      rw [List.append_assoc, hunmet]
    · obtain ⟨gap, s₂, hgap, hblank, rfl, hs₂⟩ := readGap_eq s₁
      simp only [hgap] at hread
      obtain hread | ⟨⟨z, s₃⟩, hz, hread⟩ := bind_error_iff.1 hread
      · obtain ⟨offset₁, hsize₁, hunmet⟩ := h.ok hs hsize hy
        rw [List.length_append, ← Nat.add_assoc] at hsize₁
        obtain ⟨need, item?, hneed, hitem, hunmet'⟩ := h'.error hs₂ hsize₁ hread
        refine ⟨need, item?, hneed, hitem, ?_⟩
        intro more
        rw [List.append_assoc, hunmet, itemsFrom_gap hblank, hunmet']
      · cases hread

theorem Demands.map (h : Demands size read ns) {f : α → β}
    (hread : ∀ s, read' s = (read s).map fun (x, rest) ↦ (f x, rest)) :
    Demands size read' ns where
  ok := by
    intro s y rest offset hs hsize hy
    rw [hread] at hy
    cases hx : read s with
    | error e =>
      rw [hx] at hy
      cases hy
    | ok found =>
      rw [hx] at hy
      cases hy
      exact h.ok hs hsize hx
  error := by
    intro s e offset hs hsize hy
    rw [hread] at hy
    cases hx : read s with
    | error e' =>
      rw [hx] at hy
      cases hy
      exact h.error hs hsize hx
    | ok found =>
      rw [hx] at hy
      cases hy

theorem demands_condition : Demands size readCondition [.name, .name] :=
  (demands_symbol.andThen demands_symbol).map
    (f := fun (state, gap, input) ↦ ⟨state, gap, input⟩) readCondition_eq

theorem demands_effect : Demands size readEffect [.name, .name, .action] :=
  (demands_symbol.andThen (demands_symbol.andThen demands_action)).map
    (f := fun (next, gap, output, gap', action) ↦ ⟨next, gap, output, gap', action⟩) readEffect_eq

theorem demands_body : Demands size readBody needs :=
  demands_condition.andThen (demands_colon.andThen (demands_effect.andThen demands_end))

end Demands

theorem unmet?_items (line : List Char) :
    match read line with
    | .ok _ => unmet? needs (items line) = none
    | .error e => ∃ need item?, unmet? needs (items line) = some (need, item?) ∧
        e.complaint line = ⟨line, need.offset line.length item?, need.expected⟩ := by
  obtain ⟨gap, s, hgap, hblank, hline, hs⟩ := readGap_eq line
  have hsize : gap.length + s.length = line.length := by rw [hline, List.length_append]
  have hitems : items line = itemsFrom gap.length false s := by
    rw [items, hline, itemsFrom_gap hblank, Nat.zero_add]
  rw [read_eq, hgap, hitems]
  cases hread : readBody s with
  | ok found =>
    obtain ⟨offset, -, hunmet⟩ := demands_body.ok hs hsize hread
    exact hunmet []
  | error e =>
    obtain ⟨need, item?, hneed, hitem, hunmet⟩ := demands_body.error hs hsize hread
    refine ⟨need, item?, hunmet [], ?_⟩
    cases need with
    | colon => simp [← hneed, Stop.complaint, Need.offset, Need.expected]
    | name | action | nothing =>
      simp only [← hneed, Stop.complaint, Need.offset, Need.expected, reduceCtorEq, if_false,
        Complaint.mk.injEq, true_and, and_true]
      omega

def advance : Nat × Nat → Char → Nat × Nat
  | (line, column), c => if c = '\n' then (line + 1, 1) else (line, column + 1)

theorem foldl_advance (s : List Char) : s.foldl advance (1, 1) =
    (s.count '\n' + 1, (s.reverse.takeWhile (· != '\n')).length + 1) := by
  induction s using List.reverseRecOn with
  | nil => rfl
  | append_singleton s c ih =>
    rw [List.foldl_append, ih]
    by_cases hc : c = '\n' <;> simp [advance, hc, List.count_append]

theorem Complaint.line_column (c : Complaint) :
    (c.line, c.column) = (c.text.take c.offset).foldl advance (1, 1) := by
  rw [foldl_advance]
  simp [line, column, lineStart, before]

theorem ofLine_error {line : String} {c : Complaint} :
    Rule.ofLine line = .error c ↔
      ∃ e, read line.toList = .error e ∧ e.complaint line.toList = c := by
  simp only [Rule.ofLine, ofLine]
  cases read line.toList <;> simp [Except.mapError, Except.map]

/-- A line is refused for the first of its needs that is not met. What is complained about is the
item in its place, or the end of the line if there is none; for want of a colon it is the whole
line. -/
theorem ofLine_error_iff (line : String) (c : Complaint) :
    Rule.ofLine line = .error c ↔
      ∃ k need, FirstUnmet needs (items line.toList) k need ∧
        c = ⟨line.toList, need.offset line.toList.length (items line.toList)[k]?,
          need.expected⟩ ∧
        (c.line, c.column) = (line.toList.take c.offset).foldl advance (1, 1) := by
  rw [ofLine_error]
  have hread := unmet?_items line.toList
  constructor
  · rintro ⟨e, he, rfl⟩
    rw [he] at hread
    obtain ⟨need, item?, hunmet, hc⟩ := hread
    obtain ⟨k, hfirst, rfl⟩ := unmet?_eq_some_iff.1 hunmet
    exact ⟨k, need, hfirst, hc, Complaint.line_column _⟩
  · rintro ⟨k, need, hfirst, rfl, -⟩
    have hunmet := unmet?_eq_some_iff.2 ⟨k, hfirst, rfl⟩
    cases he : read line.toList with
    | ok s =>
      rw [he, hunmet] at hread
      cases hread
    | error e =>
      rw [he, hunmet] at hread
      obtain ⟨need', item?, heq, hc⟩ := hread
      cases heq
      exact ⟨e, rfl, hc⟩

end OneTape.Statement
