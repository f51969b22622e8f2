import OneTape.Command.Run
import OneTape.Proofs.Machine.Append

namespace OneTape

open Text

section Slots

variable {line piece gap : List Char} {slot : Slot}

theorem Slot.ofLine_append_gap (hgap : IsGap gap) :
    Slot.ofLine (line ++ gap) = .ok slot ↔ Slot.ofLine line = .ok slot := by
  cases slot with
  | vacant =>
    rw [Slot.ofLine_eq_vacant_iff, Slot.ofLine_eq_vacant_iff]
    exact ⟨fun h c hc ↦ h c (List.mem_append_left gap hc), fun h ↦ h.append hgap⟩
  | filled rule =>
    rw [Slot.ofLine_eq_filled_iff, Slot.ofLine_eq_filled_iff, Statement.spells_append_gap hgap]

theorem Slot.ofLine_chomped (h : Chomped line piece) :
    Slot.ofLine piece = .ok slot ↔ Slot.ofLine line = .ok slot := by
  obtain rfl | rfl := h
  · rfl
  · have hreturn : IsGap ['\r'] := isGap_singleton.2 (by decide)
    exact (Slot.ofLine_append_gap hreturn).symm

end Slots

def Rule.Lines : List String → List Rule → Prop :=
  List.Forall₂ fun line rule ↦ Rule.ofLine line = .ok rule

theorem Rule.lines_or_bad (lines : List String) :
    (∃ rules, Rule.Lines lines rules) ∨
      ∃ front bad back rules complaint, lines = front ++ bad :: back ∧
        Rule.Lines front rules ∧ Rule.ofLine bad = .error complaint := by
  induction lines with
  | nil => exact .inl ⟨[], .nil⟩
  | cons line lines ih =>
    cases hline : Rule.ofLine line with
    | error complaint => exact .inr ⟨[], line, lines, [], complaint, rfl, .nil, hline⟩
    | ok rule =>
      obtain ⟨rules, h⟩ | ⟨front, bad, back, rules, complaint, rfl, hfront, hbad⟩ := ih
      · exact .inl ⟨rule :: rules, .cons hline h⟩
      · exact .inr ⟨line :: front, bad, back, rule :: rules, complaint, rfl, .cons hline hfront,
          hbad⟩

namespace Command

variable {front back lines : List String} {bad : String} {rules : List Rule}
  {complaint : Statement.Complaint}

def badRule (line : String) (complaint : Statement.Complaint) : Report :=
  (Report.ofError (.badStatement complaint)).under ("Invalid statement '" ++ line ++ "'")

theorem programOfRules_cons (line : String) (lines : List String) :
    programOfRules (line :: lines) = match Rule.ofLine line with
      | .error complaint => .error (badRule line complaint)
      | .ok rule => (programOfRules lines).map fun p ↦ ⟨.filled rule :: p.slots⟩ := by
  simp only [programOfRules, List.mapM_cons]
  cases Rule.ofLine line with
  | error complaint => rfl
  | ok rule =>
    simp only [Except.mapError, bind, Except.bind]
    split <;> rename_i hrest <;> rw [hrest] <;> rfl

theorem programOfRules_of_lines (h : Rule.Lines lines rules) :
    programOfRules lines = .ok (.ofRules rules) := by
  induction h with
  | nil => rfl
  | cons hline _ ih =>
    rw [programOfRules_cons, hline, ih]
    rfl

theorem programOfRules_bad (h : Rule.Lines front rules) (hbad : Rule.ofLine bad = .error complaint)
    (back : List String) :
    programOfRules (front ++ bad :: back) = .error (badRule bad complaint) := by
  induction h with
  | nil => rw [List.nil_append, programOfRules_cons, hbad]
  | cons hline _ ih =>
    rw [List.cons_append, programOfRules_cons, hline, ih]
    rfl

theorem job_of_rules {o : Options} (hne : lines ≠ []) (ho : o.rules = lines)
    (input : Option ByteArray) : job o input = (programOfRules lines).map (·, .standard) := by
  obtain ⟨line, more, rfl⟩ := List.exists_cons_of_ne_nil hne
  rw [job, ho]

end Command

section Texts

variable {front back lines : List String} {bad : String} {rules : List Rule}
  {pieces : List (List Char)} {complaint : Statement.Complaint}

def Rows (lines : List String) : Prop :=
  ∀ line ∈ lines, '\n' ∉ line.toList ∧ ¬ IsGap line.toList

instance (lines : List String) : Decidable (Rows lines) :=
  inferInstanceAs (Decidable (∀ line ∈ lines, '\n' ∉ line.toList ∧ ¬ IsGap line.toList))

theorem Rows.read (h : Rows lines) (hne : lines ≠ []) :
    List.Forall₂ (fun line piece ↦ Chomped line.toList piece) lines
      (Text.lines ("\n".intercalate lines).toList) := by
  rw [String.toList_intercalate, ← List.forall₂_map_left_iff]
  refine lines_joined (by simpa using hne) (List.forall_mem_map.2 fun line hline ↦ ?_)
  exact ⟨(h line hline).1, fun hnil ↦ (h line hline).2 (hnil ▸ isGap_nil)⟩

theorem Rows.tail {line : String} (h : Rows (line :: lines)) : Rows lines :=
  fun l hl ↦ h l (List.mem_cons_of_mem line hl)

theorem slot_of_rule {line : String} {rule : Rule} {piece : List Char}
    (hgap : ¬ IsGap line.toList) (hline : Rule.ofLine line = .ok rule)
    (hpiece : Chomped line.toList piece) : Slot.ofLine piece = .ok (.filled rule) := by
  rw [Slot.ofLine_chomped hpiece, Slot.ofLine_toList hgap, hline]
  rfl

theorem Program.readRows_of_lines (h : Rule.Lines lines rules) (hrows : Rows lines)
    (hpieces : List.Forall₂ (fun line piece ↦ Chomped line.toList piece) lines pieces)
    (number : Nat) : readRows number pieces = .ok (rules.map .filled) := by
  induction h generalizing pieces number with
  | nil =>
    cases hpieces
    rfl
  | @cons line rule lines rules hline _ ih =>
    obtain ⟨piece, more, hpiece, hmore, rfl⟩ := List.forall₂_cons_left_iff.1 hpieces
    have hslot := slot_of_rule (hrows line List.mem_cons_self).2 hline hpiece
    exact readRows_cons_ok_iff.2 ⟨_, _, hslot, ih hrows.tail hmore (number + 1), rfl⟩

theorem Program.readRows_bad (h : Rule.Lines front rules)
    (hbad : Rule.ofLine bad = .error complaint) (hrows : Rows (front ++ bad :: back))
    (hpieces : List.Forall₂ (fun line piece ↦ Chomped line.toList piece) (front ++ bad :: back)
      pieces) (number : Nat) : ∃ complaint',
    readRows number pieces = .error (.badLine (number + front.length) complaint') := by
  induction h generalizing pieces number with
  | nil =>
    obtain ⟨piece, more, hpiece, -, rfl⟩ := List.forall₂_cons_left_iff.1 hpieces
    -- The complaint may be another one, about a line without its carriage return.
    cases hslot : Slot.ofLine piece with
    | error complaint' => exact ⟨complaint', by simp only [readRows, hslot]; rfl⟩
    | ok slot =>
      rw [Slot.ofLine_chomped hpiece, Slot.ofLine_toList (hrows bad List.mem_cons_self).2,
        hbad] at hslot
      cases hslot
  | @cons line rule front rules hline _ ih =>
    obtain ⟨piece, more, hpiece, hmore, rfl⟩ := List.forall₂_cons_left_iff.1 hpieces
    have hslot := slot_of_rule (hrows line List.mem_cons_self).2 hline hpiece
    obtain ⟨complaint', hrest⟩ := ih hrows.tail hmore (number + 1)
    refine ⟨complaint', ?_⟩
    rw [readRows, hslot, List.length_cons, Nat.add_comm front.length, ← Nat.add_assoc]
    simp only [hrest]
    rfl

theorem Rows.not_isGap (h : Rows lines) (hne : lines ≠ []) :
    ¬ IsGap ("\n".intercalate lines).toList := by
  obtain ⟨line, more, rfl⟩ := List.exists_cons_of_ne_nil hne
  obtain ⟨rest, hrest⟩ : ∃ rest,
      ("\n".intercalate (line :: more)).toList = line.toList ++ rest := by
    rw [String.toList_intercalate]
    cases more with
    | nil => exact ⟨[], by simp⟩
    | cons next more => exact ⟨_, (List.intercalate_cons_cons ..).trans (List.append_assoc ..)⟩
  rw [hrest]
  exact fun hgap ↦ (h line List.mem_cons_self).2 fun c hc ↦ hgap c (List.mem_append_left rest hc)

end Texts

namespace Command

open Machine

variable {front back lines : List String} {bad : String} {rules : List Rule}
  {complaint : Statement.Complaint}

/-- However the lines are loaded, they come to this program. -/
structure Loaded (lines : List String) (p : Program) : Prop where
  rules : programOfRules lines = .ok p
  options : ∀ o input, o.rules = lines → job o input = .ok (p, .standard)
  text : Program.ofText ("\n".intercalate lines) = .ok p
  input : jobOfText ("\n".intercalate lines) = .ok (p, .standard)
  edits : ∀ m : Machine, m.phase = .idle → m.program = .empty →
    m.performAll (lines.map (.editRule none)) =
      ((List.range lines.length).map fun row ↦ .ok (.row row), { m with program := p })

/-- However the lines are loaded, those in front are taken, and the next one is the first that is
rejected. -/
structure Rejected (front : List String) (bad : String) (back : List String)
    (complaint : Statement.Complaint) : Prop where
  rules : (∃ p, programOfRules front = .ok p) ∧
    programOfRules (front ++ bad :: back) = .error (badRule bad complaint)
  options : ∀ o input, o.rules = front ++ bad :: back →
    job o input = .error (badRule bad complaint)
  text : ∃ complaint' : Statement.Complaint,
    Program.ofText ("\n".intercalate (front ++ bad :: back)) =
      .error (.badLine (front.length + 1) complaint') ∧
    jobOfText ("\n".intercalate (front ++ bad :: back)) =
      .error (.ofError (.badLine (front.length + 1) complaint'))
  edits : ∀ m : Machine, m.phase = .idle → m.program = .empty → ∃ later,
    (m.performAll ((front ++ bad :: back).map (.editRule none))).1 =
      ((List.range front.length).map fun row ↦ .ok (.row row)) ++
        .error (.badStatement complaint) :: later

theorem jobOfText_rows (hne : lines ≠ []) (hrows : Rows lines) :
    jobOfText ("\n".intercalate lines) =
      ((Program.ofText ("\n".intercalate lines)).mapError .ofError).map (·, .standard) := by
  rw [jobOfText, if_neg (mt all_isBlank_iff.1 (hrows.not_isGap hne))]

theorem appends_edits (h : Rule.Lines lines rules) :
    List.Forall₂ Operation.Appends (lines.map (.editRule none)) (rules.map .filled) := by
  rw [List.forall₂_map_left_iff, List.forall₂_map_right_iff]
  exact h.imp fun _ _ ↦ appends_editRule

theorem loaded_of_lines (hne : lines ≠ []) (hrows : Rows lines) (h : Rule.Lines lines rules) :
    Loaded lines (.ofRules rules) := by
  have hrules := programOfRules_of_lines h
  have htext : Program.ofText ("\n".intercalate lines) = .ok (.ofRules rules) := by
    rw [Program.ofText, Program.readRows_of_lines h hrows (hrows.read hne)]
    rfl
  refine ⟨hrules, fun o input ho ↦ ?_, htext, ?_, fun m hm hp ↦ ?_⟩
  · rw [job_of_rules hne ho, hrules]
    rfl
  · rw [jobOfText_rows hne hrows, htext]
    rfl
  · rw [performAll_appends_empty (appends_edits h) hm hp, List.length_map, h.length_eq]
    rfl

theorem rejected_of_bad (hrows : Rows (front ++ bad :: back)) (h : Rule.Lines front rules)
    (hbad : Rule.ofLine bad = .error complaint) : Rejected front bad back complaint := by
  have hne : front ++ bad :: back ≠ [] := by simp
  have hrules := programOfRules_bad h hbad back
  obtain ⟨complaint', hread⟩ := Program.readRows_bad h hbad hrows (hrows.read hne) 1
  have htext : Program.ofText ("\n".intercalate (front ++ bad :: back)) =
      .error (.badLine (front.length + 1) complaint') := by
    rw [Program.ofText, hread, Nat.add_comm]
    rfl
  refine ⟨⟨⟨_, programOfRules_of_lines h⟩, hrules⟩, fun o input ho ↦ ?_, ⟨complaint', htext, ?_⟩,
    fun m hm hp ↦ ?_⟩
  · rw [job_of_rules hne ho, hrules]
    rfl
  · rw [jobOfText_rows hne hrows, htext]
    rfl
  · have hfront := performAll_appends_empty (appends_edits h) hm hp
    rw [List.length_map, ← h.length_eq] at hfront
    rw [List.map_append, List.map_cons]
    exact performAll_stopped hfront (perform_bad hm hbad) _

/-- Lines that are neither blank nor have a line feed make the same program, with the same standard
configuration, whether they are rules on the command line, the lines of a text, or put into an idle
machine one by one; or the same one of them is the first that is rejected. And a text that is read,
blank lines and all, is what the edits for its lines make of an idle machine without rows. -/
theorem loads_agree :
    (∀ lines, lines ≠ [] → Rows lines → (∃ p, Loaded lines p) ∨
      ∃ front bad back complaint, lines = front ++ bad :: back ∧
        Rejected front bad back complaint) ∧
    ∀ text p, Program.ofText text = .ok p → ∀ m : Machine, m.phase = .idle → m.program = .empty →
      m.performAll ((Text.lines text.toList).map .ofLine) =
        ((List.range p.size).map fun row ↦ .ok (.row row), { m with program := p }) := by
  refine ⟨fun lines hne hrows ↦ ?_, fun text p h m hm hp ↦ ?_⟩
  · obtain ⟨rules, h⟩ | ⟨front, bad, back, rules, complaint, rfl, hfront, hbad⟩ :=
      Rule.lines_or_bad lines
    · exact .inl ⟨_, loaded_of_lines hne hrows h⟩
    · exact .inr ⟨front, bad, back, complaint, rfl, rejected_of_bad hrows hfront hbad⟩
  · have hops : List.Forall₂ Operation.Appends ((Text.lines text.toList).map .ofLine) p.slots := by
      rw [List.forall₂_map_left_iff]
      exact (Program.ofText_ok_iff.1 h).imp fun _ _ ↦ appends_ofLine
    exact performAll_appends_empty hops hm hp

theorem loads_agree_spaced :
    let lines := ["A 0 : B 1 R\r", "\u3000B 1 : B 1 H"]
    let p : Program := .ofRules [⟨"A", "0", "B", "1", .right⟩, ⟨"B", "1", "B", "1", .halt⟩]
    let text := "A 0 : B 1 R\r\n \r\nB 1 : B 1 H\n"
    let q : Program :=
      ⟨[.filled ⟨"A", "0", "B", "1", .right⟩, .vacant, .filled ⟨"B", "1", "B", "1", .halt⟩]⟩
    Loaded lines p ∧
    (∃ front bad back complaint, lines ++ ["B 0 : B 1"] = front ++ bad :: back ∧
      Rejected front bad back complaint) ∧
    (Machine.new .empty).performAll ((Text.lines text.toList).map .ofLine) =
      ([.ok (.row 0), .ok (.row 1), .ok (.row 2)], .new q) := by
  intro lines p text q
  obtain ⟨hlines, htext⟩ := loads_agree
  have hp : programOfRules lines = .ok p := rfl
  have hq : Program.ofText text = .ok q := by
    dsimp only [text, q]
    decide +kernel
  have hbad : ∀ p', programOfRules (lines ++ ["B 0 : B 1"]) ≠ .ok p' := by
    intro p' h
    cases h
  have hall : Rows (lines ++ ["B 0 : B 1"]) := by
    dsimp only [lines]
    decide +kernel
  have hrows : Rows lines := fun line h ↦ hall line (List.mem_append_left _ h)
  refine ⟨?_, ?_, htext text q hq (.new .empty) rfl rfl⟩
  · obtain ⟨p', h⟩ | ⟨front, bad, back, complaint, hcut, h⟩ := hlines lines (by simp [lines]) hrows
    · cases h.rules.symm.trans hp
      exact h
    · cases (hcut ▸ h.rules.2).symm.trans hp
  · obtain ⟨p', h⟩ | h := hlines (lines ++ ["B 0 : B 1"]) (by simp [lines]) hall
    · exact absurd h.rules (hbad p')
    · exact h

end Command

end OneTape
