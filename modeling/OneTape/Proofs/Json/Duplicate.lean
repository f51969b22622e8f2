import Mathlib.Data.List.Duplicate
import OneTape.Proofs.Json.Extent

namespace OneTape.Json

open Text

variable {s : List Char}

def MemberNamed : Option String → List Char → Prop
  | some key => MemberOf key (IsPiece .value)
  | none => IsPiece .member

theorem isPiece_of_memberNamed {key? : Option String} (h : MemberNamed key? s) :
    IsPiece .member s := by
  cases key? with
  | none => exact h
  | some key =>
    obtain ⟨gap, name, gap', v, hgap, hname, hgap', hv, rfl⟩ := h
    obtain ⟨gap₁, w, gap₂, hgap₁, hw, hgap₂, rfl⟩ := hv
    exact .member hgap (isString_of_spells hname) hgap' (.element hgap₁ hw hgap₂)

variable {ι α : Type} [DecidableEq ι] {record : Record ι α} {given given' : record.Given}
variable {first : Bool}

theorem MemberRead.rest_eq (h : ∀ i, TakesValue (record.codec i).read) {key : String}
    {given₁ : record.Given} {gap v r rest : List Char} (hgap : IsSpaces gap) (hv : IsPiece .value v)
    (hrest : Breaks inNumber rest)
    (hread : MemberRead record given key (gap ++ (v ++ rest)) given₁ r) : r = rest := by
  cases hread with
  | @field i _ _ _ _ hx => exact (h i).rest_eq hgap hv hrest hx
  | other _ hskip =>
    rw [skipValue_append hgap hv hrest] at hskip
    cases hskip
    rfl

theorem MemberRead.isSome {key : String} {given₁ : record.Given} {r : List Char}
    (hread : MemberRead record given key s given₁ r) :
    (∀ i, (given i).isSome → (given₁ i).isSome) ∧
      ∀ i, record.field? key = some i → given i = none ∧ (given₁ i).isSome := by
  cases hread with
  | @field i x _ hkey hgiven _ =>
    have hset : (given.set i x i).isSome := by simp [Record.Given.set]
    refine ⟨fun j hj ↦ ?_, fun j hj ↦ ?_⟩
    · by_cases hij : i = j
      · exact hij ▸ hset
      · simpa [Record.Given.set, hij] using hj
    · cases hkey.symm.trans hj
      exact ⟨hgiven, hset⟩
  | other hkey _ => exact ⟨fun _ hi ↦ hi, fun i hi ↦ by cases hkey.symm.trans hi⟩

theorem readMembers_memberNamed (hl : record.Lawful) (h : ∀ i, TakesValue (record.codec i).read)
    {key? : Option String} {t u rest : List Char} (hs : MemberNamed key? s)
    (hrest : Breaks inNumber rest) (ht : NextIn (s ++ rest) first t)
    (hread : record.readMembers given first t = .ok (given', u)) :
    ∃ given₁ gap, IsSpaces gap ∧ record.readMembers given₁ false (gap ++ rest) = .ok (given', u) ∧
      (∀ i, (given i).isSome → (given₁ i).isSome) ∧
      ∀ i, key? = some (record.key i) → given i = none ∧ (given₁ i).isSome := by
  -- The name of the key, if it is known, is what the reader reads.
  have hname : ∀ key, key? = some key →
      ∃ r r', skipSpace (s ++ rest) = '"' :: r ∧ readStringRest r = .ok (key, r') := by
    rintro key rfl
    obtain ⟨r, r', -, hquote, hkey, -⟩ := MemberOf.reads hs rest
    exact ⟨r, r', hquote, hkey⟩
  cases isPiece_of_memberNamed hs with
  | @member gap name gap' v hgap hstring hgap' hv =>
    cases hv with
    | @element gap₁ w gap₂ hgap₁ hw hgap₂ =>
      obtain ⟨r, hr, hskip⟩ :=
        skipString_of_isString hstring (gap' ++ ':' :: (gap₁ ++ (w ++ (gap₂ ++ rest))))
      have htext : gap ++ (name ++ (gap' ++ ':' :: (gap₁ ++ (w ++ gap₂)))) ++ rest =
          gap ++ ('"' :: r) := by
        simp [← hr]
      rw [htext] at ht hname
      have hquote : skipSpace (gap ++ ('"' :: r)) = '"' :: r :=
        (skipSpace_append hgap _).trans (skipSpace_cons opens_quote.space r)
      obtain ⟨key, u', v, given₁, w', hkey, hcolon, hmember, -, hothers⟩ :=
        readMembers_ok (nextKey_quote ht hquote) hread
      rw [skipString_of_readRest hkey] at hskip
      cases hskip
      rw [readColon_append hgap'] at hcolon
      cases hcolon
      obtain rfl := hmember.rest_eq h hgap₁ hw (breaks_gap hgap₂ hrest)
      refine ⟨given₁, gap₂, hgap₂, hothers, hmember.isSome.1, fun i hi ↦ ?_⟩
      obtain ⟨q, q', hquote', hkey'⟩ := hname _ hi
      cases hquote.symm.trans hquote'
      cases hkey.symm.trans hkey'
      exact hmember.isSome.2 i (Record.field?_key hl i)

theorem not_duplicate_of_readMembers (hl : record.Lawful)
    (h : ∀ i, TakesValue (record.codec i).read) {keys : List (Option String)}
    {t u rest : List Char} (hs : Row MemberNamed keys s) (ht : NextIn (s ++ '\x7d' :: rest) first t)
    (hread : record.readMembers given first t = .ok (given', u)) (i : ι) :
    ((given i).isSome → some (record.key i) ∉ keys) ∧
      ¬ List.Duplicate (some (record.key i)) keys := by
  -- The first part carries the induction: what a member gives is given for those behind it.
  induction hs generalizing given first t with
  | empty => exact ⟨fun _ ↦ List.not_mem_nil, List.not_duplicate_nil _⟩
  | @last key? s hs =>
    obtain ⟨_, _, _, _, _, hkey⟩ := readMembers_memberNamed hl h hs (breaks_brace rest) ht hread
    refine ⟨fun hi hmem ↦ ?_, List.not_duplicate_singleton _ _⟩
    have hnone := (hkey i (List.mem_singleton.1 hmem).symm).1
    rw [hnone] at hi
    cases hi
  | @more key? next others s s' hs _ ih =>
    rw [List.append_assoc, List.cons_append] at ht
    obtain ⟨given₁, gap, hgap, hothers, hkeep, hkey⟩ :=
      readMembers_memberNamed hl h hs (breaks_comma _) ht hread
    obtain ⟨hmem, hdup⟩ := ih (.comma hgap) hothers
    refine ⟨fun hi hin ↦ ?_, fun hin ↦ ?_⟩
    · obtain heq | hin := List.mem_cons.1 hin
      · have hnone := (hkey i heq.symm).1
        rw [hnone] at hi
        cases hi
      · exact hmem (hkeep i hi) hin
    · obtain ⟨heq, hin⟩ | hin := List.duplicate_cons_iff.1 hin
      · exact hmem (hkey i heq).2 hin
      · exact hdup hin

/-- An object in which two members have the key of one field is not read, whatever else is in it. -/
theorem read_duplicate (hl : record.Lawful) (h : ∀ i, TakesValue (record.codec i).read)
    {keys : List (Option String)} {gap : List Char} (hgap : IsSpaces gap)
    (hs : ObjectOf (Row MemberNamed keys) s) {i : ι}
    (hi : List.Duplicate (some (record.key i)) keys) (rest : List Char) :
    ∃ f, record.read (gap ++ (s ++ rest)) = .error f := by
  obtain ⟨t, ht, rfl⟩ := hs
  cases hread : record.read (gap ++ ('\x7b' :: (t ++ ['\x7d']) ++ rest)) with
  | error f => exact ⟨f, rfl⟩
  | ok p =>
    obtain ⟨x, r⟩ := p
    rw [List.cons_append, List.append_assoc, List.singleton_append] at hread
    simp only [Record.read, skipSpace_append hgap, skipSpace_cons opens_brace.space] at hread
    obtain ⟨u, hfinish, -⟩ := closeWith_ok hread
    obtain ⟨given, hmembers⟩ := finishWith_ok hfinish
    exact absurd hi (not_duplicate_of_readMembers hl h ht .first hmembers i).2

end OneTape.Json
