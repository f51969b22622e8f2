import Mathlib.Data.List.DropRight
import OneTape.Json.Reader
import OneTape.Proofs.Json.Grammar

namespace OneTape.Json

structure Opens (c : Char) : Prop where
  space : isSpace c = false
  comma : c ≠ ','
  bracket : c ≠ ']'

variable {c : Char} {gap s t : List Char}

theorem isSpace_iff {c : Char} : isSpace c = true ↔ c ∈ [' ', '\t', '\n', '\r'] := by
  simp [isSpace, or_assoc]

theorem isSpaces_nil : IsSpaces [] := fun _ h ↦ absurd h List.not_mem_nil

theorem skipSpace_append (h : IsSpaces gap) (s : List Char) :
    skipSpace (gap ++ s) = skipSpace s :=
  List.dropWhile_append_of_pos fun c hc ↦ isSpace_iff.2 (h c hc)

theorem skipSpace_spaces (h : IsSpaces gap) : skipSpace gap = [] :=
  List.dropWhile_eq_nil_iff.2 fun c hc ↦ isSpace_iff.2 (h c hc)

theorem skipSpace_skipSpace (s : List Char) : skipSpace (skipSpace s) = skipSpace s :=
  List.dropWhile_idempotent ..

theorem skipSpace_cons (h : isSpace c = false) (s : List Char) : skipSpace (c :: s) = c :: s := by
  simp [skipSpace, h]

theorem skipSpace_cons_append (h : skipSpace s = c :: t) (rest : List Char) :
    skipSpace (s ++ rest) = c :: (t ++ rest) := by
  rw [skipSpace, List.dropWhile_append]
  simp only [← skipSpace.eq_1, h, List.isEmpty_cons, Bool.false_eq_true, if_false, List.cons_append]

theorem opens_isDigit (h : c.isDigit = true) : Opens c := by
  have hne : ∀ {d : Char}, d.isDigit = false → c ≠ d := by
    rintro d hd rfl
    cases h.symm.trans hd
  refine ⟨?_, hne rfl, hne rfl⟩
  simp only [isSpace, Bool.or_eq_false_iff, beq_eq_false_iff_ne]
  exact ⟨⟨⟨hne rfl, hne rfl⟩, hne rfl⟩, hne rfl⟩

theorem opens_quote : Opens '"' := ⟨rfl, by decide, by decide⟩

theorem opens_bracket : Opens '[' := ⟨rfl, by decide, by decide⟩

theorem opens_brace : Opens '\x7b' := ⟨rfl, by decide, by decide⟩

theorem opens_spells {x : String} (h : SpellsString x s) : ∃ c t, s = c :: t ∧ Opens c := by
  obtain ⟨parts, -, rfl⟩ := h
  exact ⟨_, _, rfl, opens_quote⟩

theorem opens_arrayOf {text : List Char → Prop} (h : ArrayOf text s) :
    ∃ c t, s = c :: t ∧ Opens c := by
  obtain ⟨t, -, rfl⟩ := h
  exact ⟨_, _, rfl, opens_bracket⟩

theorem opens_objectOf {text : List Char → Prop} (h : ObjectOf text s) :
    ∃ c t, s = c :: t ∧ Opens c := by
  obtain ⟨t, -, rfl⟩ := h
  exact ⟨_, _, rfl, opens_brace⟩

def Leads (s : List Char) : Prop := ∃ c t, skipSpace s = c :: t ∧ Opens c

theorem leads_cons (h : Opens c) (s : List Char) : Leads (c :: s) :=
  ⟨c, s, skipSpace_cons h.space s, h⟩

theorem leads_append (hgap : IsSpaces gap) (h : Leads s) : Leads (gap ++ s) := by
  obtain ⟨c, t, ht, hc⟩ := h
  exact ⟨c, t, (skipSpace_append hgap s).trans ht, hc⟩

theorem Leads.append (h : Leads s) (rest : List Char) : Leads (s ++ rest) := by
  obtain ⟨c, t, ht, hc⟩ := h
  exact ⟨c, t ++ rest, skipSpace_cons_append ht rest, hc⟩

/-- A text whose next part starts with `s`: at once, or behind a comma. -/
inductive NextIn (s : List Char) : Bool → List Char → Prop where
  | first : NextIn s true s
  | comma {gap : List Char} (h : IsSpaces gap) : NextIn s false (gap ++ ',' :: s)

variable {first : Bool}

theorem NextIn.length_le (h : NextIn s first t) : s.length ≤ t.length := by
  cases h with
  | first => exact Nat.le_refl _
  | comma =>
    rw [List.length_append, List.length_cons]
    omega

theorem nextElement_of_leads (h : NextIn s first t) (hs : Leads s) :
    nextElement first t = .ok (true, skipSpace s) := by
  obtain ⟨c, u, hu, hc⟩ := hs
  have hbracket : ∀ v, c :: u = ']' :: v → False := fun v hv ↦ hc.bracket (List.cons.inj hv).1
  have hcomma : ∀ v, c :: u = ',' :: v → False := fun v hv ↦ hc.comma (List.cons.inj hv).1
  cases h with
  | first =>
    rw [nextElement]
    simp only [if_true, hu]
  | comma hgap =>
    rw [nextElement, skipSpace_append hgap, skipSpace_cons rfl]
    simp only [Bool.false_eq_true, if_false, hu]

theorem nextElement_end (hgap : IsSpaces gap) (first : Bool) (s : List Char) :
    nextElement first (gap ++ ']' :: s) = .ok (false, ']' :: s) := by
  rw [nextElement, skipSpace_append hgap]
  rfl

theorem nextKey_quote (h : NextIn s first t) {r : List Char} (hs : skipSpace s = '"' :: r) :
    nextKey first t = .ok (true, r) := by
  cases h with
  | first =>
    rw [nextKey, hs]
    rfl
  | comma hgap =>
    rw [nextKey, skipSpace_append hgap, skipSpace_cons rfl]
    simp only [Bool.false_eq_true, if_false, hs]

theorem nextKey_end (hgap : IsSpaces gap) (first : Bool) (s : List Char) :
    nextKey first (gap ++ '\x7d' :: s) = .ok (false, '\x7d' :: s) := by
  rw [nextKey, skipSpace_append hgap]
  rfl

theorem readColon_append (hgap : IsSpaces gap) (s : List Char) :
    readColon (gap ++ ':' :: s) = .ok ((), s) := by
  rw [readColon, skipSpace_append hgap]
  rfl

variable {α : Type}

theorem closeWith_endArray (hgap : IsSpaces gap) (x : α) (rest : List Char) :
    closeWith endArray (.ok (x, gap ++ ']' :: rest)) = .ok (x, rest) := by
  rw [closeWith, endArray, skipSpace_append hgap]
  rfl

theorem closeWith_endArray_ofWhole (hgap : IsSpaces gap) (reason : Reason) (rest : List Char) :
    closeWith endArray (.error (.ofWhole reason (gap ++ ']' :: rest))) =
      (.error (.here reason rest) : Except Fault (α × List Char)) := by
  simp only [closeWith, Fault.settle, Fault.ofWhole, endArray, skipSpace_append hgap]
  rfl

theorem closeWith_endObject (x : α) (rest : List Char) :
    closeWith endObject (.ok (x, '\x7d' :: rest)) = .ok (x, rest) := rfl

theorem closeWith_endObject_ofWhole (reason : Reason) (rest : List Char) :
    closeWith endObject (.error (.ofWhole reason ('\x7d' :: rest))) =
      (.error (.here reason rest) : Except Fault (α × List Char)) := rfl

end OneTape.Json
