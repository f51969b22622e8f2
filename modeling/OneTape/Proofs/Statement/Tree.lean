import Mathlib.Data.List.Forall2
import OneTape.Proofs.Statement.Spans

namespace OneTape.Statement

open Text

def tree? (part : Part) (text : List Char) : Option (Forest Pair) :=
  ((Peg.grammar part).grow false ⟨0, text⟩).map Prod.fst

def outline : Part → Forest Part
  | .condition => .node .condition (.leaf .symbol ++ .leaf .symbol) .empty
  | .effect => .node .effect (.leaf .symbol ++ .leaf .symbol ++ .leaf .action) .empty
  | .statement =>
    .node .statement
      (.node .condition (.leaf .symbol ++ .leaf .symbol) .empty ++
        .node .effect (.leaf .symbol ++ .leaf .symbol ++ .leaf .action) .empty ++
        .leaf .endOfText) .empty
  | part => .leaf part

def IsDivider (s : List Char) : Prop :=
  ∃ gap gap', s = gap ++ ':' :: gap' ∧ IsGap gap ∧ IsGap gap'

def spaces : Part → List (List Char → Prop)
  | .symbol | .action => [(· = []), Breaks isTokenChar]
  | .condition => [(· = []), IsGap, Breaks isTokenChar]
  | .effect => [(· = []), IsGap, IsGap, Breaks isTokenChar]
  | .statement => [IsGap, IsGap, IsDivider, IsGap, IsGap, IsGap, (· = [])]
  | .endOfText => [(· = []), (· = [])]

/-- From a byte of the text on there are these leaves, with such text in front of each of them and
behind the last one. -/
inductive Spaced (text : List Char) : Nat → List (List Char → Prop) → List Pair → Prop where
  | last {start : Nat} {P : List Char → Prop} {gap : List Char}
      (slice : Slice text start (byteLength text) gap) (fits : P gap) : Spaced text start [P] []
  | leaf {start : Nat} {P : List Char → Prop} {gap : List Char} {Ps : List (List Char → Prop)}
      {pair : Pair} {pairs : List Pair} (slice : Slice text start pair.start gap) (fits : P gap)
      (more : Spaced text pair.stop Ps pairs) : Spaced text start (P :: Ps) (pair :: pairs)

namespace Peg

def outline? : Peg → Bool → Option (Forest Part)
  | _, true => some .empty
  | char _, false | neg _, false | start, false | stop, false => some .empty
  | seq e f, false => do return (← e.outline? false) ++ (← f.outline? false)
  | rule part own e, false => (e.outline? own).map (.node part · .empty)
  | alt _ _, false | plus _, false => none

theorem outline?_grammar (part : Part) : (grammar part).outline? false = some (outline part) := by
  cases part <;> rfl

variable {e : Peg} {atomic : Bool} {place last : Place} {t : Forest Pair} {o : Forest Part}

theorem map_part_of_grow_atomic (ho : e.outline? true = some o)
    (h : e.grow true place = some (t, last)) : t.map Pair.part = o := by
  have hempty : e.outline? true = some .empty := by cases e <;> rfl
  rw [hempty] at ho
  cases ho
  rw [grow_atomic h]
  rfl

theorem map_part_of_grow (ho : e.outline? false = some o)
    (h : e.grow false place = some (t, last)) : t.map Pair.part = o := by
  induction e generalizing place last t o with
  | char | neg | start | stop =>
    cases ho
    rw [grow_of_rules_eq_nil rfl h]
    rfl
  | seq e f ihe ihf =>
    simp only [outline?, Option.bind_eq_bind, Option.bind_eq_some_iff, Option.pure_def,
      Option.some.injEq] at ho
    obtain ⟨front', he', back', hf', rfl⟩ := ho
    obtain ⟨front, next, back, he, hf, rfl⟩ := grow_seq_iff.1 h
    rw [Forest.map_append, ihe he' he, ihf hf' hf]
  | alt | plus => cases ho
  | rule part own e ih =>
    obtain ⟨inner', hinner', rfl⟩ := Option.map_eq_some_iff.1 ho
    obtain ⟨inner, he, rfl⟩ := grow_rule_iff.1 h
    have hinner : inner.map Pair.part = inner' := by
      cases own with
      | true => exact map_part_of_grow_atomic hinner' he
      | false => exact ih hinner' he
    simp [enclose, Forest.map, Pair.spanning, hinner]

end Peg

def Condition.tree (c : Condition) (start : Nat) : Forest Pair :=
  .node (.spanning .condition start c.text)
    (.leaf (.spanning .symbol start c.state) ++
      .leaf (.spanning .symbol (start + byteLength (c.state ++ c.gap)) c.input)) .empty

def Effect.tree (e : Effect) (start : Nat) : Forest Pair :=
  .node (.spanning .effect start e.text)
    (.leaf (.spanning .symbol start e.next) ++
      .leaf (.spanning .symbol (start + byteLength (e.next ++ e.gap)) e.output) ++
      .leaf (.spanning .action
        (start + byteLength (e.next ++ e.gap ++ e.output ++ e.gap')) [e.action.letter])) .empty

def tree (s : Statement) : Forest Pair :=
  .node (.spanning .statement 0 s.text)
    (s.condition.tree (byteLength s.lead) ++
      s.effect.tree (byteLength (s.lead ++ s.condition.text ++ s.gap ++ ':' :: s.gap')) ++
      .leaf (.spanning .endOfText (byteLength s.text) [])) .empty

variable {part : Part} {text : List Char} {t : Forest Pair}

theorem find_eq (part : Part) (text : List Char) :
    (find part text).toOption = (tree? part text).map Forest.nodes := by
  rw [← Peg.parse_grammar, Peg.parse_eq, tree?, Option.map_map, Option.map_map]
  rfl

theorem grow_of_tree? (h : tree? part text = some t) :
    ∃ last, (Peg.grammar part).grow false ⟨0, text⟩ = some (t, last) := by
  obtain ⟨⟨_, last⟩, hgrow, rfl⟩ := Option.map_eq_some_iff.1 h
  exact ⟨last, hgrow⟩

theorem map_part_of_tree? (h : tree? part text = some t) : t.map Pair.part = outline part := by
  obtain ⟨last, hgrow⟩ := grow_of_tree? h
  exact Peg.map_part_of_grow (Peg.outline?_grammar part) hgrow

theorem find_of_tree? (h : tree? part text = some t) : find part text = .ok t.nodes := by
  have hfind := find_eq part text
  rw [h] at hfind
  cases hread : find part text with
  | error stop => rw [hread] at hfind; cases hfind
  | ok pairs => rw [hread] at hfind; cases hfind; rfl

theorem eq_of_find {u : Forest Pair} (h : tree? part text = some t)
    (hu : u.map Pair.part = outline part) (hfind : find part text = .ok u.nodes) : t = u := by
  refine Forest.eq_of_map_eq ((map_part_of_tree? h).trans hu.symm) ?_
  rw [find_of_tree? h] at hfind
  exact Except.ok.inj hfind

structure Token where
  gap : List Char
  part : Part
  text : List Char

def leavesFrom (start : Nat) : List Token → List Pair
  | [] => []
  | token :: more =>
    .spanning token.part (start + byteLength token.gap) token.text ::
      leavesFrom (start + byteLength token.gap + byteLength token.text) more

theorem spaced_leavesFrom {tokens : List Token} {Ps : List (List Char → Prop)}
    {front last : List Char}
    (htext : text = front ++ tokens.flatMap (fun token ↦ token.gap ++ token.text) ++ last)
    (hfits : List.Forall₂ (fun P gap ↦ P gap) Ps (tokens.map Token.gap ++ [last])) :
    Spaced text (byteLength front) Ps (leavesFrom (byteLength front) tokens) := by
  induction tokens generalizing front Ps with
  | nil =>
    obtain _ | ⟨hP, _ | _⟩ := hfits
    rw [List.flatMap_nil, List.append_nil] at htext
    exact .last ⟨front, [], by simp [htext], rfl, by simp [htext]⟩ hP
  | cons token tokens ih =>
    obtain _ | ⟨hP, hmore⟩ := hfits
    let back := tokens.flatMap (fun token ↦ token.gap ++ token.text) ++ last
    have hslice : text = front ++ token.gap ++ (token.text ++ back) := by simp [htext, back]
    have hfront : text = front ++ token.gap ++ token.text ++
        tokens.flatMap (fun token ↦ token.gap ++ token.text) ++ last := by
      simp [htext]
    have hlayout := ih hfront hmore
    simp only [byteLength_append] at hlayout
    exact .leaf ⟨front, token.text ++ back, hslice, rfl, byteLength_append⟩ hP hlayout

theorem spaced_of_tokens (tokens : List Token) {Ps : List (List Char → Prop)} {last : List Char}
    (htext : text = tokens.flatMap (fun token ↦ token.gap ++ token.text) ++ last)
    (hfits : List.Forall₂ (fun P gap ↦ P gap) Ps (tokens.map Token.gap ++ [last])) :
    Spaced text 0 Ps (leavesFrom 0 tokens) := by
  have hfront : text = [] ++ tokens.flatMap (fun token ↦ token.gap ++ token.text) ++ last := htext
  exact spaced_leavesFrom hfront hfits

def Condition.tokens (c : Condition) : List Token :=
  [⟨[], .symbol, c.state⟩, ⟨c.gap, .symbol, c.input⟩]

def Effect.tokens (e : Effect) : List Token :=
  [⟨[], .symbol, e.next⟩, ⟨e.gap, .symbol, e.output⟩, ⟨e.gap', .action, [e.action.letter]⟩]

def tokens (s : Statement) : List Token :=
  [⟨s.lead, .symbol, s.condition.state⟩, ⟨s.condition.gap, .symbol, s.condition.input⟩,
    ⟨s.gap ++ ':' :: s.gap', .symbol, s.effect.next⟩, ⟨s.effect.gap, .symbol, s.effect.output⟩,
    ⟨s.effect.gap', .action, [s.effect.action.letter]⟩, ⟨s.trail, .endOfText, []⟩]

theorem Condition.leaves_tree (c : Condition) : (c.tree 0).leaves = leavesFrom 0 c.tokens := by
  simp [tree, tokens, leavesFrom, Forest.leaf, Forest.leaves, byteLength_append]

theorem Effect.leaves_tree (e : Effect) : (e.tree 0).leaves = leavesFrom 0 e.tokens := by
  simp [tree, tokens, leavesFrom, Forest.leaf, Forest.leaves, byteLength_append, Nat.add_assoc]

theorem leaves_tree (s : Statement) : s.tree.leaves = leavesFrom 0 s.tokens := by
  simp [tree, Condition.tree, Effect.tree, tokens, leavesFrom, Forest.leaf, Forest.leaves,
    Statement.text, Condition.text, Effect.text, byteLength_append, Nat.add_assoc]

theorem eq_tree_of_statement (h : tree? .statement text = some t) :
    ∃ s : Statement, read text = .ok s ∧ t = s.tree := by
  obtain ⟨s, hread, -⟩ := map_ok_iff.1 (find_of_tree? h)
  refine ⟨s, hread, eq_of_find h rfl ?_⟩
  rw [find, hread]
  rfl

theorem spaced_of_tree? (h : tree? part text = some t) : Spaced text 0 (spaces part) t.leaves := by
  have hfind := find_of_tree? h
  cases part with
  | symbol =>
    obtain ⟨⟨name, rest⟩, hread, -⟩ := map_ok_iff.1 hfind
    obtain ⟨-, htext, hbreaks⟩ := readSymbol_ok_iff.1 hread
    have ht : t = .leaf (.spanning .symbol 0 name) := eq_of_find h rfl (by rw [find, hread]; rfl)
    rw [ht]
    exact spaced_of_tokens [⟨[], .symbol, name⟩] (by simpa using htext)
      (.cons rfl (.cons hbreaks .nil))
  | action =>
    obtain ⟨⟨a, rest⟩, hread, -⟩ := map_ok_iff.1 hfind
    obtain ⟨htext, hbreaks⟩ := readAction_ok_iff.1 hread
    have ht : t = .leaf (.spanning .action 0 [a.letter]) :=
      eq_of_find h rfl (by rw [find, hread]; rfl)
    rw [ht]
    exact spaced_of_tokens [⟨[], .action, [a.letter]⟩] (by simpa using htext)
      (.cons rfl (.cons hbreaks .nil))
  | condition =>
    obtain ⟨⟨c, rest⟩, hread, -⟩ := map_ok_iff.1 hfind
    obtain ⟨hc, htext, hbreaks⟩ := readCondition_ok_iff.1 hread
    have ht : t = c.tree 0 := eq_of_find h rfl (by rw [find, hread]; rfl)
    rw [ht, c.leaves_tree]
    exact spaced_of_tokens c.tokens (by simpa [Condition.tokens, Condition.text] using htext)
      (.cons rfl (.cons hc.gap (.cons hbreaks .nil)))
  | effect =>
    obtain ⟨⟨e, rest⟩, hread, -⟩ := map_ok_iff.1 hfind
    obtain ⟨he, htext, hbreaks⟩ := readEffect_ok_iff.1 hread
    have ht : t = e.tree 0 := eq_of_find h rfl (by rw [find, hread]; rfl)
    rw [ht, e.leaves_tree]
    exact spaced_of_tokens e.tokens (by simpa [Effect.tokens, Effect.text] using htext)
      (.cons rfl (.cons he.gap (.cons he.gap' (.cons hbreaks .nil))))
  | statement =>
    obtain ⟨s, hread, rfl⟩ := eq_tree_of_statement h
    obtain ⟨hs, rfl⟩ := read_ok_iff.1 hread
    have hdivider : IsDivider (s.gap ++ ':' :: s.gap') := ⟨s.gap, s.gap', rfl, hs.gap, hs.gap'⟩
    rw [s.leaves_tree]
    have htext : s.text = s.tokens.flatMap (fun token ↦ token.gap ++ token.text) ++ [] := by
      simp [tokens, Statement.text, Condition.text, Effect.text]
    exact spaced_of_tokens s.tokens htext
      (.cons hs.lead (.cons hs.condition.gap (.cons hdivider (.cons hs.effect.gap
        (.cons hs.effect.gap' (.cons hs.trail (.cons rfl .nil)))))))
  | endOfText =>
    rw [find] at hfind
    split at hfind
    · rename_i hnil
      have ht : t = .leaf (.spanning .endOfText 0 []) :=
        eq_of_find h rfl (by rw [find, if_pos hnil]; rfl)
      rw [ht]
      exact spaced_of_tokens [⟨[], .endOfText, []⟩] (by simpa using hnil)
        (.cons rfl (.cons rfl .nil))
    · cases hfind

structure BadTree where
  message : String
  start : Nat
  stop : Nat
deriving DecidableEq, Repr

/-- Symbols are gathered in their order; of actions the last one is kept. -/
def collectPart (found : List String × Option Action) (pair : Pair) :
    Except BadTree (List String × Option Action) :=
  match pair.part with
  | .symbol => .ok (found.1 ++ [pair.text], found.2)
  | .action =>
    match Action.ofToken? pair.text.toList with
    | some action => .ok (found.1, some action)
    | none => .error ⟨"Unsupported action: " ++ pair.text, pair.start, pair.stop⟩
  | _ => .ok found

/-- The rule told by what stands two levels below the root of a tree. -/
def Forest.rule : Forest Pair → Except BadTree Rule
  | empty => .error ⟨"Empty statement", 0, 0⟩
  | node pair inner _ => do
    let found ← (inner.trees.flatMap fun (_, below) ↦ below.trees.map Prod.fst).foldlM collectPart
      ([], none)
    match found with
    | ([state, input, next, output], some action) => return ⟨state, input, next, output, action⟩
    | _ => throw ⟨"Incomplete statement", pair.start, pair.stop⟩

theorem rule_tree (s : Statement) : s.tree.rule = .ok s.rule := by
  simp [Forest.rule, tree, Condition.tree, Effect.tree, Forest.leaf, Forest.trees, collectPart,
    Pair.spanning, Action.ofToken?_letter, Statement.rule, bind, Except.bind, pure, Except.pure]

example : (Forest.leaf ⟨.statement, 0, 2, "é"⟩).rule = .error ⟨"Incomplete statement", 0, 2⟩ := by
  decide

theorem rule_of_tree? {text : String} (h : tree? .statement text.toList = some t) :
    ∃ rule, Rule.ofLine text = .ok rule ∧ t.rule = .ok rule ∧
      (t.leaves.filter (·.part = .symbol)).map Pair.text =
        [rule.state, rule.input, rule.next, rule.output] ∧
      (t.leaves.filter (·.part = .action)).map Pair.text = [rule.action.letter.toString] := by
  obtain ⟨s, hread, rfl⟩ := eq_tree_of_statement h
  refine ⟨s.rule, ofLine_ok_iff.2 ⟨s, hread, rfl⟩, rule_tree s, ?_, ?_⟩
  · simp [leaves_tree, leavesFrom, tokens, Pair.spanning, Statement.rule]
  · simp [leaves_tree, leavesFrom, tokens, Pair.spanning, Statement.rule, Char.toString]

theorem exists_tree?_iff {text : String} :
    (∃ t, tree? .statement text.toList = some t) ↔ ∃ rule, Rule.ofLine text = .ok rule := by
  constructor
  · rintro ⟨t, ht⟩
    obtain ⟨rule, hrule, -⟩ := rule_of_tree? ht
    exact ⟨rule, hrule⟩
  · rintro ⟨rule, hrule⟩
    obtain ⟨s, hread, -⟩ := ofLine_ok_iff.1 hrule
    have hfind := find_eq .statement text.toList
    rw [find, hread] at hfind
    cases ht : tree? .statement text.toList with
    | none => rw [ht] at hfind; cases hfind
    | some t => exact ⟨t, rfl⟩

theorem Peg.spellsSymbols_grammar (part : Part) : (grammar part).SpellsSymbols := by
  cases part <;>
    simp [SpellsSymbols, grammar, symbol, action, condition, effect, statement, endOfText, letter,
      tokenChar, colon, rules]

theorem grown_of_tree? (h : tree? part text = some t) :
    Laid text 0 (byteLength text) t ∧
      ∀ pair ∈ t.nodes, pair.part = .symbol → IsSymbol text pair := by
  obtain ⟨last, hgrow⟩ := grow_of_tree? h
  have hgrown := Peg.grown (Peg.spellsSymbols_grammar part) (Place.reaches_refl ⟨0, text⟩) hgrow
  obtain ⟨s, htext, hbytes⟩ := hgrown.reaches
  have hlast : last.bytes ≤ byteLength text := by
    have hlength : byteLength text = byteLength s + byteLength last.rest := by
      rw [← byteLength_append, ← htext]
    simp only [Nat.zero_add] at hbytes
    omega
  refine ⟨?_, hgrown.symbols⟩
  have hlaid := hgrown.laid.append (.empty hlast)
  rwa [Forest.append_empty] at hlaid

/-- The trees of the grammar are faithful to the text. Each consists of just the parts that it
should; these cover slices of the text, lie inside each other and behind each other; the symbols are
whole, and there is white space between the leaves, with a colon in the middle of a statement. A
line has the tree of a statement just when it is read, and from the tree the rule is gathered that
is read: nothing is ever missing. -/
theorem trees_faithful (text : String) :
    (∀ part, (find part text.toList).toOption = (tree? part text.toList).map Forest.nodes) ∧
    (∀ part t, tree? part text.toList = some t →
      t.map Pair.part = outline part ∧
      Laid text.toList 0 (byteLength text.toList) t ∧
      (∀ pair ∈ t.nodes, pair.part = .symbol → IsSymbol text.toList pair) ∧
      Spaced text.toList 0 (spaces part) t.leaves) ∧
    ((∃ t, tree? .statement text.toList = some t) ↔ ∃ rule, Rule.ofLine text = .ok rule) ∧
    ∀ t, tree? .statement text.toList = some t → ∃ rule, Rule.ofLine text = .ok rule ∧
      t.rule = .ok rule ∧
      (t.leaves.filter (·.part = .symbol)).map Pair.text =
        [rule.state, rule.input, rule.next, rule.output] ∧
      (t.leaves.filter (·.part = .action)).map Pair.text = [rule.action.letter.toString] := by
  refine ⟨fun part ↦ find_eq part text.toList, ?_, exists_tree?_iff, fun t ↦ rule_of_tree?⟩
  intro part t ht
  obtain ⟨hlaid, hsymbols⟩ := grown_of_tree? ht
  exact ⟨map_part_of_tree? ht, hlaid, hsymbols, spaced_of_tree? ht⟩

/-- Places are counted in bytes: here a name takes two of them and a space three. -/
theorem trees_faithful_two_bytes :
    let text := "é 0:b\u20031 H"
    ∃ t, tree? .statement text.toList = some t ∧ t.map Pair.part = outline .statement ∧
      t.nodes.map (fun pair ↦ (pair.start, pair.stop)) =
        [(0, 12), (0, 4), (0, 2), (3, 4), (5, 12), (5, 6), (9, 10), (11, 12), (12, 12)] ∧
      Laid text.toList 0 12 t ∧ t.rule = .ok ⟨"é", "0", "b", "1", .halt⟩ := by
  intro text
  have hread : Rule.ofLine text = .ok ⟨"é", "0", "b", "1", .halt⟩ := by decide
  obtain ⟨hfind, hparts, hiff, hrule⟩ := trees_faithful text
  obtain ⟨t, ht⟩ := hiff.2 ⟨_, hread⟩
  obtain ⟨houtline, hlaid, -⟩ := hparts .statement t ht
  have hlength : byteLength text.toList = 12 := by decide
  rw [hlength] at hlaid
  obtain ⟨rule, hline, htree, -⟩ := hrule t ht
  rw [hread] at hline
  cases hline
  have hnodes := hfind .statement
  rw [ht] at hnodes
  refine ⟨t, ht, houtline, ?_, hlaid, htree⟩
  have hspans : (find .statement text.toList).toOption.map
      (·.map fun pair ↦ (pair.start, pair.stop)) =
      some [(0, 12), (0, 4), (0, 2), (3, 4), (5, 12), (5, 6), (9, 10), (11, 12), (12, 12)] := by
    decide
  rw [hnodes] at hspans
  exact Option.some.inj hspans

end OneTape.Statement
