import OneTape.Proofs.Program.Text
import OneTape.Proofs.Statement.Complaint

namespace OneTape

open Text Statement

variable {line : List Char} {ls : List (List Char)} {complaint : Complaint} {slot : Slot}

inductive Slot.Stands : List Char → Slot → Prop where
  | vacant {line : List Char} : IsGap line → Stands line .vacant
  | filled {line : List Char} {rule : Rule} : ¬ IsGap line →
      Rule.ofLine (String.ofList line) = .ok rule → Stands line (.filled rule)

def Accepted (line : List Char) : Prop :=
  ¬ IsGap line → ∃ rule, Rule.ofLine (String.ofList line) = .ok rule

structure Refused (line : List Char) (complaint : Complaint) : Prop where
  gap : ¬ IsGap line
  complaint : Rule.ofLine (String.ofList line) = .error complaint

structure FirstRefused (ls : List (List Char)) (i : Nat) (complaint : Complaint) : Prop where
  refused : ∃ line, ls[i]? = some line ∧ Refused line complaint
  accepted : ∀ line ∈ ls.take i, Accepted line

theorem Slot.Stands.ofLine (h : Slot.Stands line slot) : Slot.ofLine line = .ok slot := by
  cases h with
  | vacant hgap => exact Slot.ofLine_of_isGap hgap
  | filled hgap hrule =>
    rw [Slot.ofLine_of_not_isGap hgap, hrule]
    rfl

theorem Refused.ofLine (h : Refused line complaint) : Slot.ofLine line = .error complaint := by
  rw [Slot.ofLine_of_not_isGap h.gap, h.complaint]
  rfl

theorem Refused.not_accepted (h : Refused line complaint) : ¬ Accepted line := by
  intro haccepted
  obtain ⟨rule, hrule⟩ := haccepted h.gap
  rw [h.complaint] at hrule
  cases hrule

theorem stands_or_refused (line : List Char) :
    (∃ slot, Slot.Stands line slot ∧ Accepted line) ∨ ∃ complaint, Refused line complaint := by
  by_cases hgap : IsGap line
  · exact .inl ⟨.vacant, .vacant hgap, fun h ↦ absurd hgap h⟩
  · cases hrule : Rule.ofLine (String.ofList line) with
    | ok rule => exact .inl ⟨.filled rule, .filled hgap hrule, fun _ ↦ ⟨rule, hrule⟩⟩
    | error complaint => exact .inr ⟨complaint, hgap, hrule⟩

theorem Slot.ofLine_ok_iff_stands : Slot.ofLine line = .ok slot ↔ Slot.Stands line slot := by
  refine ⟨fun h ↦ ?_, Slot.Stands.ofLine⟩
  obtain ⟨slot', hstands, -⟩ | ⟨complaint, hrefused⟩ := stands_or_refused line
  · rw [hstands.ofLine] at h
    cases h
    exact hstands
  · rw [hrefused.ofLine] at h
    cases h

theorem Slot.exists_ofLine_ok_iff : (∃ slot, Slot.ofLine line = .ok slot) ↔ Accepted line := by
  obtain ⟨slot, hstands, haccepted⟩ | ⟨complaint, hrefused⟩ := stands_or_refused line
  · exact ⟨fun _ ↦ haccepted, fun _ ↦ ⟨slot, hstands.ofLine⟩⟩
  · refine ⟨fun h ↦ ?_, fun h ↦ absurd h hrefused.not_accepted⟩
    obtain ⟨slot, hslot⟩ := h
    rw [hrefused.ofLine] at hslot
    cases hslot

theorem firstRefused_cons_zero :
    FirstRefused (line :: ls) 0 complaint ↔ Refused line complaint := by
  constructor
  · rintro ⟨⟨line', hline, hrefused⟩, -⟩
    cases hline
    exact hrefused
  · intro h
    exact ⟨⟨line, rfl, h⟩, List.forall_mem_nil _⟩

theorem firstRefused_cons_succ {i : Nat} : FirstRefused (line :: ls) (i + 1) complaint ↔
    Accepted line ∧ FirstRefused ls i complaint := by
  constructor
  · rintro ⟨hrefused, haccepted⟩
    rw [List.take_succ_cons, List.forall_mem_cons] at haccepted
    exact ⟨haccepted.1, hrefused, haccepted.2⟩
  · rintro ⟨hline, hrefused, haccepted⟩
    refine ⟨hrefused, ?_⟩
    rw [List.take_succ_cons, List.forall_mem_cons]
    exact ⟨hline, haccepted⟩

theorem Statement.Complaint.message_of_line (h : complaint.line = 1) :
    ∃ more, complaint.message = " --> 1:" ++ toString complaint.column ++ "\n" ++ more := by
  have hpad : String.ofList (List.replicate (toString 1).length ' ') ++ "--> " ++ toString 1 ++ ":"
      = " --> 1:" := by decide
  rw [Complaint.message, h]
  simp only [hpad]
  exact ⟨_, String.intercalate_cons_cons⟩

theorem Refused.line_eq (h : Refused line complaint) (hfeed : '\n' ∉ line) :
    complaint.line = 1 := by
  obtain ⟨stop, -, rfl⟩ := ofLine_error.1 h.complaint
  rw [String.toList_ofList]
  have hcount : (Complaint.before (stop.complaint line)).count '\n' = 0 :=
    List.count_eq_zero.2 fun hm ↦ hfeed (List.mem_of_mem_take hm)
  rw [Complaint.line, hcount]

namespace Program

theorem readRows_error_iff (number : Nat) {e : Error} :
    readRows number ls = .error e ↔
      ∃ i complaint, FirstRefused ls i complaint ∧ e = .badLine (number + i) complaint := by
  -- For any number, since a line in front of the others shifts the number and the place by one.
  induction ls generalizing number with
  | nil =>
    constructor
    · intro h
      cases h
    · rintro ⟨i, complaint, ⟨⟨line, hline, -⟩, -⟩, -⟩
      cases hline
  | cons line ls ih =>
    have hnumber : ∀ i, number + 1 + i = number + (i + 1) := by omega
    rw [readRows]
    obtain ⟨slot, hstands, haccepted⟩ | ⟨complaint, hrefused⟩ := stands_or_refused line
    · have hmore : (readRows (number + 1) ls).map (slot :: ·) = .error e ↔
          readRows (number + 1) ls = .error e := by
        cases readRows (number + 1) ls <;> simp [Except.map]
      rw [hstands.ofLine]
      refine (hmore.trans (ih (number + 1))).trans ?_
      constructor
      · rintro ⟨i, complaint, hfirst, rfl⟩
        exact ⟨i + 1, complaint, firstRefused_cons_succ.2 ⟨haccepted, hfirst⟩, by rw [hnumber]⟩
      · rintro ⟨i, complaint, hfirst, rfl⟩
        cases i with
        | zero => exact absurd haccepted (firstRefused_cons_zero.1 hfirst).not_accepted
        | succ i => exact ⟨i, complaint, (firstRefused_cons_succ.1 hfirst).2, by rw [hnumber]⟩
    · rw [hrefused.ofLine]
      constructor
      · intro h
        cases h
        exact ⟨0, complaint, firstRefused_cons_zero.2 hrefused, rfl⟩
      · rintro ⟨i, complaint', hfirst, rfl⟩
        cases i with
        | zero =>
          have hsame := (firstRefused_cons_zero.1 hfirst).ofLine
          rw [hrefused.ofLine] at hsame
          cases hsame
          rfl
        | succ i => exact absurd (firstRefused_cons_succ.1 hfirst).1 hrefused.not_accepted

theorem ofText_eq_error_iff {s : String} {e : Error} :
    ofText s = .error e ↔ ∃ i complaint, FirstRefused (Text.lines s.toList) i complaint ∧
      e = .badLine (i + 1) complaint := by
  have hread : ofText s = .error e ↔ readRows 1 (Text.lines s.toList) = .error e := by
    rw [ofText]
    cases readRows 1 (Text.lines s.toList) <;> simp [Except.map]
  simp only [hread, readRows_error_iff, Nat.add_comm 1]

theorem ofText_ok_iff_stands {s : String} {p : Program} :
    ofText s = .ok p ↔ List.Forall₂ Slot.Stands (Text.lines s.toList) p.slots := by
  simp only [ofText_ok_iff, Slot.ofLine_ok_iff_stands]

theorem exists_readRows_ok_iff (number : Nat) :
    (∃ slots, readRows number ls = .ok slots) ↔ ∀ line ∈ ls, Accepted line := by
  induction ls generalizing number with
  | nil => exact ⟨fun _ ↦ List.forall_mem_nil _, fun _ ↦ ⟨[], rfl⟩⟩
  | cons line ls ih =>
    rw [List.forall_mem_cons, ← ih (number + 1), ← Slot.exists_ofLine_ok_iff]
    simp only [readRows_cons_ok_iff]
    constructor
    · rintro ⟨_, slot, more, hslot, hmore, rfl⟩
      exact ⟨⟨slot, hslot⟩, more, hmore⟩
    · rintro ⟨⟨slot, hslot⟩, more, hmore⟩
      exact ⟨_, slot, more, hslot, hmore, rfl⟩

theorem exists_ofText_ok_iff {s : String} :
    (∃ p, ofText s = .ok p) ↔ ∀ line ∈ Text.lines s.toList, Accepted line := by
  rw [← exists_readRows_ok_iff 1, ofText]
  cases readRows 1 (Text.lines s.toList) <;> simp [Except.map]

/-- A text is a program just when each of its lines is blank or a statement, and then the lines
stand for its rows one by one. Else the first line that is neither is reported: by its number, and
with the complaint that it gives rise to alone, which is always about line 1. The same complaint
comes from that line in any other text, wherever it is the first to be refused. -/
theorem ofText_row_by_row (text : String) :
    (∃ pieces last, text.toList.splitOn '\n' = pieces ++ [last] ∧
      Text.lines text.toList = pieces.map chomp ++ if last = [] then [] else [last]) ∧
    ((∃ p, ofText text = .ok p) ↔ ∀ line ∈ Text.lines text.toList, Accepted line) ∧
    (∀ p, ofText text = .ok p ↔ List.Forall₂ Slot.Stands (Text.lines text.toList) p.slots) ∧
    (∀ e, ofText text = .error e ↔ ∃ i complaint,
      FirstRefused (Text.lines text.toList) i complaint ∧ e = .badLine (i + 1) complaint) ∧
    ∀ i complaint, FirstRefused (Text.lines text.toList) i complaint →
      complaint.line = 1 ∧
      (∃ more, complaint.message = " --> 1:" ++ toString complaint.column ++ "\n" ++ more) ∧
      ∀ other k, (Text.lines other.toList)[k]? = (Text.lines text.toList)[i]? →
        (∀ line ∈ (Text.lines other.toList).take k, Accepted line) →
        ofText other = .error (.badLine (k + 1) complaint) := by
  obtain ⟨pieces, last, hsplit, -, hlines⟩ := lines_split text.toList
  refine ⟨⟨pieces, last, hsplit, hlines⟩, exists_ofText_ok_iff, fun p ↦ ofText_ok_iff_stands,
    fun e ↦ ofText_eq_error_iff, ?_⟩
  intro i complaint hfirst
  obtain ⟨line, hline, hrefused⟩ := hfirst.refused
  have hfeed : '\n' ∉ line := not_mem_of_mem_lines (List.mem_of_getElem? hline)
  have hnumber := hrefused.line_eq hfeed
  refine ⟨hnumber, Complaint.message_of_line hnumber, ?_⟩
  intro other k hsame haccepted
  exact ofText_eq_error_iff.2
    ⟨k, complaint, ⟨⟨line, hsame.trans hline, hrefused⟩, haccepted⟩, rfl⟩

example : ofText "\u2003\r\na 0 : b 1 L\n\nb" = .error (.badLine 4 ⟨['b'], 1, .symbol⟩) := by
  decide

end Program

end OneTape
