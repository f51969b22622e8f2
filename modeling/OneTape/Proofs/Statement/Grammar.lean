import OneTape.Proofs.Statement.Peg
import OneTape.Proofs.Statement.Words

namespace OneTape.Statement

open Text

namespace Peg

def colon : Peg := .char (· == ':')

def tokenChar : Peg := .seq (.neg (.alt colon (.char isBlank))) (.char fun _ ↦ true)

def symbol : Peg := .rule .symbol true (.plus tokenChar)

def letter : Peg := .alt (.char (· == 'L')) (.alt (.char (· == 'R')) (.char (· == 'H')))

def action : Peg := .rule .action true (.seq letter (.neg tokenChar))

def condition : Peg := .rule .condition false (.seq symbol symbol)

def effect : Peg := .rule .effect false (.seq symbol (.seq symbol action))

def endOfText : Peg := .rule .endOfText false .stop

def statement : Peg :=
  .rule .statement false (.seq .start (.seq condition (.seq colon (.seq effect endOfText))))

def grammar : Part → Peg
  | .symbol => symbol
  | .action => action
  | .condition => condition
  | .effect => effect
  | .statement => statement
  | .endOfText => endOfText

def andThen {α β : Type} (read : Reader α) (read' : Reader β) : Reader (α × List Char × β) :=
  fun s ↦ do
    let (x, s) ← read s
    let (gap, s) := readGap s
    let (y, s) ← read' s
    return ((x, gap, y), s)

/-- At every place the expression matches what `read` reads there, and leaves its pairs. -/
structure Follows {α : Type} (e : Peg) (read : Reader α) (text : α → List Char)
    (pairs : α → Nat → List Pair) : Prop where
  exact : ∀ {s x rest}, read s = .ok (x, rest) → s = text x ++ rest
  parse : ∀ place, e.parse false place =
    match read place.rest with
    | .ok (x, rest) => some (pairs x place.bytes, place.past (text x) rest)
    | .error _ => none

section Atoms

variable {place : Place}

theorem parse_tokenChar (place : Place) :
    tokenChar.parse true place = (char isTokenChar).parse true place := by
  obtain ⟨bytes, s⟩ := place
  cases s with
  | nil => simp [tokenChar, colon, parse, Place.skip]
  | cons c s =>
    by_cases hcolon : c = ':'
    · simp [tokenChar, colon, parse, isTokenChar, hcolon]
    · by_cases hblank : isBlank c
      · simp [tokenChar, colon, parse, isTokenChar, hblank]
      · simp [tokenChar, colon, parse, isTokenChar, hcolon, hblank, Place.skip, Place.past]

theorem follows_symbol :
    Follows symbol readSymbol id fun name start ↦ [.spanning .symbol start name] where
  exact h := (readSymbol_ok_iff.1 h).2.1
  parse place := by
    have hplus := parse_plus parse_tokenChar place
    by_cases hs : place.rest.takeWhile isTokenChar = []
    · rw [if_pos hs] at hplus
      rw [symbol, parse_rule_none hplus]
      simp [readSymbol, hs]
    · rw [if_neg hs] at hplus
      rw [symbol, parse_rule hplus, Place.upTo_past List.takeWhile_append_dropWhile.symm]
      simp [readSymbol, hs]

theorem parse_letter (a : Action) (bytes : Nat) (rest : List Char) :
    letter.parse true ⟨bytes, a.letter :: rest⟩ =
      some ([], Place.past ⟨bytes, a.letter :: rest⟩ [a.letter] rest) := by
  cases a <;> rfl

theorem parse_letter_none (h : ∀ (a : Action) rest, place.rest ≠ a.letter :: rest) :
    letter.parse true place = none := by
  obtain ⟨bytes, s⟩ := place
  cases s with
  | nil => rfl
  | cons c s =>
    have hl : c ≠ 'L' := fun hc ↦ h .left s (congrArg (· :: s) hc)
    have hr : c ≠ 'R' := fun hc ↦ h .right s (congrArg (· :: s) hc)
    have hh : c ≠ 'H' := fun hc ↦ h .halt s (congrArg (· :: s) hc)
    simp [letter, parse, hl, hr, hh]

theorem parse_lookahead (h : Breaks isTokenChar place.rest) :
    (neg tokenChar).parse true place = some ([], place) := by
  obtain ⟨bytes, s⟩ := place
  rw [parse, parse_tokenChar]
  cases s with
  | nil => rfl
  | cons c s => simp [parse, breaks_cons.1 h]

theorem parse_lookahead_none (h : ¬Breaks isTokenChar place.rest) :
    (neg tokenChar).parse true place = none := by
  obtain ⟨bytes, s⟩ := place
  rw [parse, parse_tokenChar]
  cases s with
  | nil => exact absurd breaks_nil h
  | cons c s =>
    have hc : isTokenChar c = true := by simpa using h
    simp [parse, hc]

theorem follows_action :
    Follows action readAction (fun act ↦ [act.letter])
      fun act start ↦ [.spanning .action start [act.letter]] where
  exact h := (readAction_ok_iff.1 h).1
  parse := by
    rintro ⟨bytes, s⟩
    cases hread : readAction s with
    | ok found =>
      obtain ⟨a, rest⟩ := found
      obtain ⟨rfl, hbreaks⟩ := readAction_ok_iff.1 hread
      have hbody := parse_seq (f := .neg tokenChar) (parse_letter a bytes rest)
      rw [Place.skip, if_pos rfl, parse_lookahead hbreaks] at hbody
      rw [action, parse_rule hbody, Place.upTo_past rfl]
      simp
    | error stop =>
      have hbody : (seq letter (.neg tokenChar)).parse true ⟨bytes, s⟩ = none := by
        by_cases hs : ∃ (a : Action) (rest : List Char), s = a.letter :: rest
        · obtain ⟨a, rest, rfl⟩ := hs
          have hgoes : ¬Breaks isTokenChar rest := by
            intro hbreaks
            rw [readAction_ok_iff.2 ⟨rfl, hbreaks⟩] at hread
            cases hread
          rw [parse_seq (parse_letter a bytes rest), Place.skip, if_pos rfl]
          exact congrArg _ (parse_lookahead_none hgoes)
        · exact parse_seq_none (parse_letter_none fun a rest he ↦ hs ⟨a, rest, he⟩)
      rw [action, parse_rule_none hbody]

end Atoms

namespace Follows

variable {α β : Type} {e f : Peg} {read : Reader α} {read' : Reader β}
  {text : α → List Char} {text' : β → List Char}
  {pairs : α → Nat → List Pair} {pairs' : β → Nat → List Pair}

theorem seq (he : Follows e read text pairs) (hf : Follows f read' text' pairs') :
    Follows (.seq e f) (andThen read read') (fun (x, gap, y) ↦ text x ++ gap ++ text' y)
      fun (x, gap, y) start ↦
        pairs x start ++ pairs' y (start + byteLength (text x ++ gap)) where
  exact := by
    rintro s ⟨x, gap, y⟩ rest h
    obtain ⟨⟨x', s₁⟩, hx, h⟩ := bind_ok_iff.1 h
    obtain ⟨gap', s₂, hgap, -, rfl, -⟩ := readGap_eq s₁
    simp only [hgap] at h
    obtain ⟨⟨y', s₃⟩, hy, h⟩ := bind_ok_iff.1 h
    cases h
    rw [he.exact hx, hf.exact hy]
    simp
  parse place := by
    have hplace := he.parse place
    cases hx : read place.rest with
    | error stop =>
      rw [hx] at hplace
      rw [parse_seq_none hplace]
      simp [andThen, hx, bind, Except.bind]
    | ok found =>
      obtain ⟨x, s₁⟩ := found
      rw [hx] at hplace
      obtain ⟨gap, s₂, hgap, -, -, -⟩ := readGap_eq s₁
      have hskip : (place.past (text x) s₁).skip false = place.past (text x ++ gap) s₂ := by
        rw [readGap, Prod.mk.injEq] at hgap
        simp only [Place.skip, Place.past, hgap, byteLength_append, Nat.add_assoc]
        rfl
      rw [parse_seq hplace, hskip, hf.parse]
      cases hy : read' s₂ with
      | error stop => simp [andThen, hx, hgap, Place.past, hy, bind, Except.bind]
      | ok found =>
        obtain ⟨y, s₃⟩ := found
        simp [andThen, hx, hgap, hy, Place.past, byteLength_append, Nat.add_assoc, bind,
          Except.bind, pure, Except.pure]

theorem map (h : Follows e read text pairs) (g : α → β)
    (hread : ∀ s, read' s = (read s).map fun (x, rest) ↦ (g x, rest))
    (htext : ∀ x, text' (g x) = text x) (hpairs : ∀ x start, pairs' (g x) start = pairs x start) :
    Follows e read' text' pairs' where
  exact := by
    intro s y rest hy
    rw [hread] at hy
    cases hx : read s with
    | error stop =>
      rw [hx] at hy
      cases hy
    | ok found =>
      rw [hx] at hy
      cases hy
      rw [htext]
      exact h.exact hx
  parse place := by
    rw [h.parse, hread]
    cases read place.rest with
    | error stop => rfl
    | ok found => simp [Except.map, htext, hpairs]

theorem rule {part : Part} (h : Follows e read text pairs) :
    Follows (.rule part false e) read text
      fun x start ↦ .spanning part start (text x) :: pairs x start where
  exact := h.exact
  parse place := by
    have hplace := h.parse place
    cases hx : read place.rest with
    | error stop =>
      rw [hx] at hplace
      rw [parse_rule_none hplace]
    | ok found =>
      rw [hx] at hplace
      rw [parse_rule hplace, Place.upTo_past (h.exact hx)]

theorem find (h : Follows e read text pairs) (s : List Char) :
    (e.parse false ⟨0, s⟩).map Prod.fst = ((read s).map fun (x, _) ↦ pairs x 0).toOption := by
  rw [h.parse]
  cases read s <;> rfl

end Follows

theorem readCondition_eq (s : List Char) : readCondition s =
    (andThen readSymbol readSymbol s).map fun ((state, gap, input), rest) ↦
      (⟨state, gap, input⟩, rest) := by
  simp only [readCondition, andThen]
  cases readSymbol s with
  | error stop => rfl
  | ok found =>
    obtain ⟨state, s₁⟩ := found
    simp only [bind, Except.bind]
    cases readSymbol (readGap s₁).2 <;> rfl

theorem readEffect_eq (s : List Char) : readEffect s =
    (andThen readSymbol (andThen readSymbol readAction) s).map
      fun ((next, gap, output, gap', action), rest) ↦
        (⟨next, gap, output, gap', action⟩, rest) := by
  simp only [readEffect, andThen]
  cases readSymbol s with
  | error stop => rfl
  | ok found =>
    obtain ⟨next, s₁⟩ := found
    simp only [bind, Except.bind]
    cases readSymbol (readGap s₁).2 with
    | error stop => rfl
    | ok found =>
      obtain ⟨output, s₂⟩ := found
      simp only
      cases readAction (readGap s₂).2 <;> rfl

theorem follows_condition :
    Follows condition readCondition Condition.text Condition.pairs :=
  (follows_symbol.seq follows_symbol).rule.map (fun (state, gap, input) ↦ ⟨state, gap, input⟩)
    readCondition_eq (fun _ ↦ rfl) (fun _ _ ↦ rfl)

theorem follows_effect : Follows effect readEffect Effect.text Effect.pairs := by
  refine (follows_symbol.seq (follows_symbol.seq follows_action)).rule.map
    (fun (next, gap, output, gap', action) ↦ ⟨next, gap, output, gap', action⟩)
    readEffect_eq (fun _ ↦ ?_) (fun _ _ ↦ ?_)
  · simp [Effect.text]
  · simp [Effect.text, Effect.pairs, byteLength_append, Nat.add_assoc]

def readColon : Reader Unit
  | ':' :: s => .ok ((), s)
  | s => .error ⟨.statement, s⟩

def readEnd : Reader Unit
  | [] => .ok ((), [])
  | s => .error ⟨.endOfText, s⟩

theorem readColon_error {s : List Char} {e : Stop} (h : readColon s = .error e) :
    e = ⟨.statement, s⟩ := by
  unfold readColon at h
  split at h <;> cases h
  rfl

theorem readEnd_error {s : List Char} {e : Stop} (h : readEnd s = .error e) :
    e = ⟨.endOfText, s⟩ := by
  unfold readEnd at h
  split at h <;> cases h
  rfl

theorem follows_colon : Follows colon readColon (fun _ ↦ [':']) fun _ _ ↦ [] where
  exact := by
    intro s x rest h
    unfold readColon at h
    split at h <;> cases h
    rfl
  parse := by
    rintro ⟨bytes, s⟩
    cases s with
    | nil => rfl
    | cons c s =>
      by_cases hc : c = ':'
      · subst c
        rfl
      · simp [colon, Peg.parse, readColon, hc]

theorem follows_stop : Follows .stop readEnd (fun _ ↦ []) fun _ _ ↦ [] where
  exact := by
    intro s x rest h
    unfold readEnd at h
    split at h <;> cases h
    rfl
  parse := by
    rintro ⟨bytes, s⟩
    cases s <;> rfl

theorem follows_endOfText :
    Follows endOfText readEnd (fun _ ↦ []) fun _ start ↦ [.spanning .endOfText start []] :=
  follows_stop.rule

def readBody : Reader (Condition × List Char × Unit × List Char × Effect × List Char × Unit) :=
  andThen readCondition (andThen readColon (andThen readEffect readEnd))

theorem follows_body :
    Follows (.seq condition (.seq colon (.seq effect endOfText))) readBody
      (fun (c, gap, (), gap', e, trail, ()) ↦ c.text ++ gap ++ ':' :: (gap' ++ e.text ++ trail))
      fun (c, gap, (), gap', e, trail, ()) start ↦
        c.pairs start ++ e.pairs (start + byteLength (c.text ++ gap ++ ':' :: gap')) ++
          [.spanning .endOfText
            (start + byteLength (c.text ++ gap ++ ':' :: (gap' ++ e.text ++ trail))) []] := by
  refine (follows_condition.seq (follows_colon.seq (follows_effect.seq follows_endOfText))).map id
    (fun s ↦ ?_) ?_ ?_
  · rw [readBody]
    cases andThen readCondition (andThen readColon (andThen readEffect readEnd)) s <;> rfl
  · rintro ⟨c, gap, ⟨⟩, gap', e, trail, ⟨⟩⟩
    simp
  · rintro ⟨c, gap, ⟨⟩, gap', e, trail, ⟨⟩⟩ start
    simp [byteLength_append, Nat.add_assoc]

/-- A statement is read by its body. Only the complaint about a colon is moved, to the whole. -/
theorem read_eq (line : List Char) :
    read line = match readBody (readGap line).2 with
      | .ok ((c, gap, (), gap', e, trail, ()), _) =>
        .ok ⟨(readGap line).1, c, gap, gap', e, trail⟩
      | .error e => .error (if e.expected = .statement then ⟨.statement, line⟩ else e) := by
  simp only [read, readBody, andThen]
  cases hcondition : readCondition (readGap line).2 with
  | error e => simp [bind, Except.bind, readCondition_error hcondition]
  | ok found =>
    obtain ⟨condition, s₁⟩ := found
    simp only [bind, Except.bind]
    cases (readGap s₁).2 with
    | nil => rfl
    | cons c s₂ =>
      by_cases hc : c = ':'
      · subst c
        simp only [readColon]
        cases heffect : readEffect (readGap s₂).2 with
        | error e =>
          obtain he | he := readEffect_error heffect <;> simp [he]
        | ok found =>
          obtain ⟨effect, s₃⟩ := found
          simp only
          cases (readGap s₃).2 <;> rfl
      · simp [readColon, hc]
        rfl

theorem read_toOption (line : List Char) :
    (read line).toOption =
      (readBody (readGap line).2).toOption.map fun ((c, gap, (), gap', e, trail, ()), _) ↦
        ⟨(readGap line).1, c, gap, gap', e, trail⟩ := by
  rw [read_eq]
  cases readBody (readGap line).2 <;> rfl

theorem parse_statement (line : List Char) :
    statement.parse false ⟨0, line⟩ =
      (read line).toOption.map fun s ↦ (s.pairs, ⟨byteLength line, []⟩) := by
  obtain ⟨lead, inner, hgap, -, hline, -⟩ := readGap_eq line
  have hread := read_toOption line
  have hstart : Peg.start.parse false ⟨0, line⟩ = some ([], ⟨0, line⟩) := rfl
  have hskip : (⟨0, line⟩ : Place).skip false = ⟨byteLength lead, inner⟩ := by
    rw [readGap, Prod.mk.injEq] at hgap
    simp [Place.skip, Place.past, hgap]
  have hbody := follows_body.parse ⟨byteLength lead, inner⟩
  rw [hgap] at hread
  cases hfound : readBody inner with
  | error stop =>
    simp only [hfound] at hbody hread
    rw [hread, statement, parse_rule_none]
    · rfl
    · rw [parse_seq hstart, hskip, hbody]
      rfl
  | ok found =>
    obtain ⟨⟨c, gap, ⟨⟩, gap', e, trail, ⟨⟩⟩, rest⟩ := found
    simp only [hfound] at hbody hread
    have hok : read line = .ok ⟨lead, c, gap, gap', e, trail⟩ := by
      cases hs : read line with
      | error stop => simp [hs, Except.toOption] at hread
      | ok s => simpa [hs, Except.toOption] using hread
    have htext := (read_ok_iff.1 hok).2
    -- The text of the statement is the whole line, so there is nothing behind it.
    have hrest : rest = [] := by
      have hexact := follows_body.exact hfound
      rw [hexact, ← htext] at hline
      simpa [Statement.text] using hline
    subst hrest
    have hseq := parse_seq (f := .seq condition (.seq colon (.seq effect endOfText))) hstart
    rw [hskip, hbody, Option.map_some] at hseq
    rw [hok, statement, parse_rule hseq, Place.upTo_end _ rfl, ← htext]
    simp [Except.toOption, Statement.pairs, Statement.text, Place.past, byteLength_append]

/-- Reading finds the pairs that the grammar leaves, whatever part is read. -/
theorem parse_grammar (part : Part) (s : List Char) :
    ((grammar part).parse false ⟨0, s⟩).map Prod.fst = (find part s).toOption := by
  cases part with
  | symbol => exact follows_symbol.find s
  | action => exact follows_action.find s
  | condition => exact follows_condition.find s
  | effect => exact follows_effect.find s
  | statement =>
    rw [grammar, parse_statement, find]
    cases read s <;> rfl
  | endOfText => cases s <;> rfl

end Peg

def ruleOfPairs? (pairs : List Pair) : Option Rule := do
  let action ← (pairs.filter (·.part = .action)).getLast?
  let action ← Action.ofToken? action.text.toList
  match (pairs.filter (·.part = .symbol)).map Pair.text with
  | [state, input, next, output] => some ⟨state, input, next, output, action⟩
  | _ => none

theorem ruleOfPairs?_pairs (s : Statement) : ruleOfPairs? s.pairs = some s.rule := by
  simp [ruleOfPairs?, pairs, Condition.pairs, Effect.pairs, Pair.spanning, rule,
    Action.ofToken?_letter]

def parse? (line : List Char) : Option Rule := do
  let (pairs, _) ← (Peg.grammar .statement).parse false ⟨0, line⟩
  ruleOfPairs? pairs

theorem parse?_eq (line : List Char) : parse? line = (read line).toOption.map rule := by
  rw [parse?, Peg.grammar, Peg.parse_statement]
  cases read line with
  | error stop => rfl
  | ok s => exact ruleOfPairs?_pairs s

/-- The grammar and the reader accept the lines whose cut gives five words about a colon, the
last a letter of an action, and both give the rule of these words. -/
theorem ofLine_ok_iff_spells (line : String) (rule : Rule) :
    (Rule.ofLine line = .ok rule ↔ Spells line.toList rule) ∧
      (parse? line.toList = some rule ↔ Spells line.toList rule) := by
  have hread : (∃ s, read line.toList = .ok s ∧ s.rule = rule) ↔ Spells line.toList rule := by
    simp only [read_ok_iff, spells_iff, and_assoc]
  refine ⟨ofLine_ok_iff.trans hread, ?_⟩
  rw [parse?_eq, ← hread]
  cases read line.toList <;> simp [Except.toOption]

end OneTape.Statement
