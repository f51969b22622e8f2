import Mathlib.Data.Finset.Lattice.Lemmas
import Mathlib.Data.Set.Function
import OneTape.Proofs.Machine.Confined
import OneTape.Proofs.Program.Lookup

namespace OneTape

variable {f g : String → String}

def Rule.rename (f g : String → String) (rule : Rule) : Rule :=
  ⟨f rule.state, g rule.input, f rule.next, g rule.output, rule.action⟩

def Slot.rename (f g : String → String) : Slot → Slot
  | filled rule => filled (rule.rename f g)
  | vacant => vacant

theorem Rule.fires_rename {rule : Rule} {state symbol : String}
    (hf : f rule.state = f state → rule.state = state)
    (hg : g rule.input = g symbol → rule.input = symbol) :
    (rule.rename f g).fires (f state) (g symbol) = rule.fires state symbol := by
  rw [Bool.eq_iff_iff, Rule.fires_iff, Rule.fires_iff]
  exact ⟨fun h ↦ ⟨hf h.1, hg h.2⟩, fun h ↦ ⟨congrArg f h.1, congrArg g h.2⟩⟩

namespace Program

def rename (f g : String → String) (p : Program) : Program := ⟨p.slots.map (Slot.rename f g)⟩

def stateNames (p : Program) (start : String) : Finset String :=
  p.states start ∪ (p.rules.map Rule.state).toFinset

def symbolNames (p : Program) (tape : Tape) : Finset String :=
  p.symbols tape ∪ (p.rules.map Rule.input).toFinset

variable {p : Program} {start state : String} {tape : Tape} {symbol : String} {rule : Rule}

theorem states_subset : p.states start ⊆ p.stateNames start := Finset.subset_union_left

theorem symbols_subset : p.symbols tape ⊆ p.symbolNames tape := Finset.subset_union_left

theorem mem_stateNames (h : rule ∈ p.rules) : rule.state ∈ p.stateNames start :=
  Finset.mem_union_right _ (List.mem_toFinset.2 (List.mem_map_of_mem h))

theorem mem_symbolNames (h : rule ∈ p.rules) : rule.input ∈ p.symbolNames tape :=
  Finset.mem_union_right _ (List.mem_toFinset.2 (List.mem_map_of_mem h))

theorem lookup_rename (hf : ∀ rule ∈ p.rules, f rule.state = f state → rule.state = state)
    (hg : ∀ rule ∈ p.rules, g rule.input = g symbol → rule.input = symbol) :
    (p.rename f g).lookup (f state) (g symbol) =
      (p.lookup state symbol).map (Prod.map (Rule.rename f g) id) := by
  obtain ⟨slots⟩ := p
  change lookupIn _ _ (slots.map (Slot.rename f g)) = (lookupIn state symbol slots).map _
  simp only [mem_rules] at hf hg
  induction slots with
  | nil => rfl
  | cons slot slots ih =>
    have hrest := ih (fun rule h ↦ hf rule (List.mem_cons_of_mem slot h))
      fun rule h ↦ hg rule (List.mem_cons_of_mem slot h)
    cases slot with
    | vacant =>
      simp only [List.map_cons, Slot.rename, lookupIn, hrest, Option.map_map]
      rfl
    | filled rule =>
      have hfires := Rule.fires_rename (hf rule List.mem_cons_self) (hg rule List.mem_cons_self)
      simp only [List.map_cons, Slot.rename, lookupIn, hfires, hrest]
      cases rule.fires state symbol with
      | true => rfl
      | false =>
        simp only [Bool.false_eq_true, if_false, Option.map_map]
        rfl

end Program

namespace Machine

def rename (f g : String → String) (m : Machine) : Machine :=
  { m with program := m.program.rename f g, tape := ⟨m.tape.cells.map g⟩, state := f m.state }

variable {m : Machine} {p : Program} {start : String} {tape : Tape}

theorem size_rename (m : Machine) : (m.rename f g).tape.size = m.tape.size := List.length_map ..

theorem target?_rename (m : Machine) (action : Action) :
    (m.rename f g).target? action = m.target? action := by
  cases action with
  | left | halt => rfl
  | right =>
    rw [target?, target?, size_rename]
    rfl

theorem symbol?_rename (m : Machine) : (m.rename f g).symbol? = m.symbol?.map g := by
  have hread : (m.rename f g).tape.read m.head = (m.tape.read m.head).map g := List.getElem?_map ..
  cases hp : m.phase with
  | started => rwa [symbol?_of_started hp, symbol?_of_started (m := m.rename f g) hp]
  | idle | halted => simp only [symbol?, rename, hp, Option.map_none]

theorem activeRule?_rename (m : Machine) :
    (m.rename f g).activeRule? = m.activeRule?.map (Prod.map (Rule.rename f g) id) := by
  have hslot : ∀ row, (m.program.rename f g).slot? row =
      (m.program.slot? row).map (Slot.rename f g) := fun row ↦ List.getElem?_map ..
  simp only [activeRule?, rename, hslot]
  cases m.active with
  | none => rfl
  | some row =>
    cases hs : m.program.slot? row with
    | none => simp [hs]
    | some slot => cases slot <;> simp [hs] <;> rfl

theorem activeRule?_rename_of_some {rule : Rule} {row : Nat}
    (h : m.activeRule? = some (rule, row)) :
    (m.rename f g).activeRule? = some (rule.rename f g, row) := by
  rw [activeRule?_rename, h]
  rfl

theorem mem_cells_of_symbol? {symbol : String} (h : m.symbol? = some symbol) :
    symbol ∈ m.tape.cells := by
  have hs : m.phase = .started := by
    by_contra hne
    cases hp : m.phase <;> simp [symbol?, hp] at h hne
  rw [symbol?_of_started hs] at h
  exact List.mem_of_getElem? h

theorem carryOut_rename (m : Machine) (rule : Rule) (head : Nat) :
    (m.rename f g).carryOut (rule.rename f g) head = (m.carryOut rule head).rename f g := by
  simp only [carryOut, rename, Rule.rename, List.map_set]

section Confined

variable (hf : Set.InjOn f (p.stateNames start)) (hg : Set.InjOn g (p.symbolNames tape))

include hf hg

/-- The row of the next rule is looked up among the new names, and found where it was. -/
theorem refresh_rename (hp : m.program = p) (hs : m.state ∈ p.states start)
    (hc : ∀ cell ∈ m.tape.cells, cell ∈ p.symbols tape) :
    (m.rename f g).refresh = m.refresh.rename f g := by
  subst hp
  have hactive : (m.rename f g).refresh.active = m.refresh.active := by
    rw [refresh_active, refresh_active, symbol?_rename]
    cases hsymbol : m.symbol? with
    | none => rfl
    | some symbol =>
      have hlookup : (m.program.rename f g).lookup (f m.state) (g symbol) =
          (m.program.lookup m.state symbol).map (Prod.map (Rule.rename f g) id) := by
        apply Program.lookup_rename
        · intro rule hrule h
          exact hf (Program.mem_stateNames hrule) (Program.states_subset hs) h
        · intro rule hrule h
          have hcell := hc symbol (mem_cells_of_symbol? hsymbol)
          exact hg (Program.mem_symbolNames hrule) (Program.symbols_subset hcell) h
      change ((m.program.rename f g).lookup (f m.state) (g symbol)).map Prod.snd =
        (m.program.lookup m.state symbol).map Prod.snd
      rw [hlookup, Option.map_map]
      rfl
  exact congrArg (fun active ↦ { m.rename f g with active := active }) hactive

theorem started_rename (head : Nat) :
    started (p.rename f g) (f start) (tape.cells.map g) head =
      (started p start tape.cells head).rename f g := by
  apply refresh_rename (m := ⟨p, tape, start, head, .started, none⟩) hf hg rfl
  · exact Program.mem_states.2 (.inl rfl)
  · exact fun cell hcell ↦ Program.mem_symbols.2 (.inl hcell)

theorem step_rename (hm : m.Confined p start tape) :
    (m.rename f g).step = (m.step.1, m.step.2.rename f g) := by
  have h := m.stepped
  generalize m.step.1 = answer, m.step.2 = m' at h ⊢
  cases h with
  | skipped ha => exact step_skipped (by rw [activeRule?_rename, ha]; rfl)
  | blocked ha ht =>
    exact step_blocked (activeRule?_rename_of_some ha) ((m.target?_rename _).trans ht)
  | lost ha hlost => exact step_lost (activeRule?_rename_of_some ha) (by rwa [size_rename])
  | @moved rule row head ha ht hlt hr =>
    obtain ⟨hstate, hcells⟩ := hm.carryOut ha
    have hlook : ((m.carryOut rule head).rename f g).refresh =
        (m.carryOut rule head).refresh.rename f g := refresh_rename hf hg hm.program hstate hcells
    rw [step_moved (activeRule?_rename_of_some ha) ((m.target?_rename _).trans ht)
      (by rwa [size_rename]) hr, carryOut_rename, hlook]
  | @halted rule row ha hlt hr =>
    rw [step_halted (activeRule?_rename_of_some ha) (by rwa [size_rename]) hr]
    exact congrArg (fun m ↦ (Except.ok Outcome.halted, { m with phase := .halted, active := none }))
      (m.carryOut_rename rule m.head)

theorem steps_rename (hm : m.Confined p start tape) (n : Nat) :
    (m.rename f g).steps n = ((m.steps n).1, (m.steps n).2.rename f g) := by
  induction n generalizing m with
  | zero => rfl
  | succ n ih => simp only [steps, step_rename hf hg hm, ih hm.step]

end Confined

section Build

variable {text : String} (hcomma : ∀ cell ∈ (Tape.ofText text).cells, ',' ∉ (g cell).toList)

include hcomma

theorem ofText_rename : Tape.ofText (Tape.text ⟨(Tape.ofText text).cells.map g⟩) =
    ⟨(Tape.ofText text).cells.map g⟩ := by
  apply Tape.ofText_text
  · simp [Tape.ofText]
  · simpa using hcomma

theorem size_ofText_rename :
    (Tape.ofText (Tape.text ⟨(Tape.ofText text).cells.map g⟩)).size = (Tape.ofText text).size := by
  rw [ofText_rename hcomma]
  exact List.length_map ..

theorem build_rename_answer (p : Program) (start : String) (head : Nat) :
    ((new (p.rename f g)).build (Tape.text ⟨(Tape.ofText text).cells.map g⟩) (f start) head).1 =
      ((new p).build text start head).1 := by
  have hsize := size_ofText_rename hcomma
  by_cases h : head = 0 ∨ (Tape.ofText text).size < head
  · rw [build_outside _ _ h, build_outside _ _ (by rwa [hsize]), hsize]
  · rw [build_inside _ _ h, build_inside _ _ (by rwa [hsize])]

theorem build_rename (hf : Set.InjOn f (p.stateNames start))
    (hg : Set.InjOn g (p.symbolNames (.ofText text))) {head : Nat}
    (hb : (new p).build text start head = (.ok (), m)) :
    (new (p.rename f g)).build (Tape.text ⟨(Tape.ofText text).cells.map g⟩) (f start) head =
      (.ok (), m.rename f g) := by
  have hsize := size_ofText_rename hcomma
  by_cases h : head = 0 ∨ (Tape.ofText text).size < head
  · rw [build_outside _ _ h] at hb
    cases hb
  · rw [build_inside _ _ h] at hb
    cases hb
    rw [build_inside _ _ (by rwa [hsize]), ofText_rename hcomma]
    exact congrArg (Prod.mk _) (started_rename hf hg (head - 1))

end Build

/-- If `f` gives no two states of a program and its start the same name, and `g` no two symbols of
the program and the tape, the renamed program on the renamed tape does what the program does: it is
built or refused alike, and any number of steps gives the same answers and the same machine under
the new names, with the same head, phase and row. A text stands for any cells without commas, as
long as there is one. -/
theorem renamed_runs_alike (p : Program) (text start : String) (head : Nat)
    {f g : String → String} (hf : Set.InjOn f (p.stateNames start))
    (hg : Set.InjOn g (p.symbolNames (.ofText text)))
    (hcomma : ∀ cell ∈ (Tape.ofText text).cells, ',' ∉ (g cell).toList) :
    let text' := Tape.text ⟨(Tape.ofText text).cells.map g⟩
    ((new (p.rename f g)).build text' (f start) head).1 = ((new p).build text start head).1 ∧
    ∀ m, (new p).build text start head = (.ok (), m) →
      ∃ m', (new (p.rename f g)).build text' (f start) head = (.ok (), m') ∧
        ∀ n, (m'.steps n).1 = (m.steps n).1 ∧ (m'.steps n).2 = (m.steps n).2.rename f g := by
  refine ⟨build_rename_answer hcomma p start head, ?_⟩
  intro m hb
  refine ⟨m.rename f g, build_rename hcomma hf hg hb, ?_⟩
  intro n
  rw [steps_rename hf hg (confined_build hb)]
  exact ⟨rfl, rfl⟩

/-- States and symbols change places, and a symbol that is only written becomes a comma. -/
theorem renamed_runs_alike_exchanged :
    let p : Program := ⟨[.filled ⟨"A", "0", "B", "1", .right⟩, .vacant,
      .filled ⟨"B", "", "A", "0", .right⟩]⟩
    let q : Program := ⟨[.filled ⟨"B", "", "A", ",", .right⟩, .vacant,
      .filled ⟨"A", "0", "B", "", .right⟩]⟩
    let f := fun state ↦ if state = "A" then "B" else "A"
    let g := fun symbol ↦ if symbol = "0" then "" else if symbol = "" then "0" else ","
    let m : Machine := ⟨p, ⟨["0", ""]⟩, "A", 0, .started, some 0⟩
    (∀ a ∈ p.stateNames "A", ∀ b ∈ p.stateNames "A", f a = f b → a = b) ∧
    (∀ a ∈ p.symbolNames (.ofText "0,"), ∀ b ∈ p.symbolNames (.ofText "0,"), g a = g b → a = b) ∧
    (∀ cell ∈ (Tape.ofText "0,").cells, ',' ∉ (g cell).toList) ∧
    p.rename f g = q ∧ (new p).build "0," "A" 1 = (.ok (), m) ∧
    (m.steps 2).1 = [.ok .moved, .error (.offTape 1)] ∧
    ∃ m', (new q).build ",0" "B" 1 = (.ok (), m') ∧
      (m'.steps 2).1 = [.ok .moved, .error (.offTape 1)] ∧
      (m'.steps 2).2 = ⟨q, ⟨[",", "0"]⟩, "A", 1, .started, some 2⟩ := by
  intro p q f g m
  have hf : ∀ a ∈ p.stateNames "A", ∀ b ∈ p.stateNames "A", f a = f b → a = b := by decide
  have hg : ∀ a ∈ p.symbolNames (.ofText "0,"), ∀ b ∈ p.symbolNames (.ofText "0,"),
      g a = g b → a = b := by decide
  have hcomma : ∀ cell ∈ (Tape.ofText "0,").cells, ',' ∉ (g cell).toList := by decide
  have hm : (new p).build "0," "A" 1 = (.ok (), m) := rfl
  obtain ⟨-, hrun⟩ := renamed_runs_alike p "0," "A" 1 (fun a ha b hb ↦ hf a ha b hb)
    (fun a ha b hb ↦ hg a ha b hb) hcomma
  obtain ⟨m', hm', hsteps⟩ := hrun m hm
  obtain ⟨hanswers, hmachine⟩ := hsteps 2
  exact ⟨hf, hg, hcomma, rfl, hm, rfl, m', hm', hanswers, hmachine⟩

end Machine

end OneTape
