import OneTape.Json.Choice
import OneTape.Json.Record
import OneTape.Proofs.Json.Skip

namespace OneTape.Json

open Text

inductive Member (ι : Type) where
  | field (i : ι)
  | other (key : String)

def Member.field? {ι : Type} : Member ι → Option ι
  | field i => some i
  | other _ => none

def fieldsOf {ι : Type} (members : List (Member ι)) : List ι := members.filterMap Member.field?

theorem MemberOf.reads {key : String} {text : List Char → Prop} {s : List Char}
    (hs : MemberOf key text s) (rest : List Char) :
    ∃ r r' v, skipSpace (s ++ rest) = '"' :: r ∧ readStringRest r = .ok (key, r') ∧
      readColon r' = .ok ((), v ++ rest) ∧ Padded text v ∧
      (v ++ rest).length < (s ++ rest).length := by
  obtain ⟨gap, name, gap', v, hgap, hname, hgap', hv, rfl⟩ := hs
  obtain ⟨r, hr, hread⟩ := readStringRest_spells hname (gap' ++ ':' :: (v ++ rest))
  refine ⟨r, _, v, ?_, hread, readColon_append hgap' _, hv, ?_⟩
  · simp only [List.append_assoc, List.cons_append]
    rw [skipSpace_append hgap, hr, skipSpace_cons opens_quote.space]
  · simp only [List.length_append, List.length_cons]
    omega

/-- A record says what it is made of: its fields have names of their own, and it is put together
from what they hold. -/
structure Record.Lawful {ι α : Type} (record : Record ι α) : Prop where
  nodup : record.fields.Nodup
  key_injective : ∀ i j, record.key i = record.key j → i = j
  build_content : ∀ x, record.build (record.content x) = x

namespace Record

variable {ι α : Type} {record : Record ι α} {x : α}

abbrev Layout (record : Record ι α) := (i : ι) → record.Content i → List Char → Prop

/-- The texts of a member when the record is `x`. A member with another key has any value. -/
def MemberText (record : Record ι α) (layout : record.Layout) (x : α) : Member ι → List Char → Prop
  | .field i, s => MemberOf (record.key i) (layout i (record.content x i)) s
  | .other key, s => (∀ i, record.key i ≠ key) ∧ MemberOf key (IsPiece .value) s

def ObjectText (record : Record ι α) (layout : record.Layout) (x : α) (members : List (Member ι)) :
    List Char → Prop :=
  ObjectOf (Row (record.MemberText layout x) members)

def ArrayText (record : Record ι α) (layout : record.Layout) (x : α) (fields : List ι) :
    List Char → Prop :=
  ArrayOf (Row (fun i ↦ Padded (layout i (record.content x i))) fields)

theorem MemberText.imp {layout layout' : record.Layout} {member : Member ι} {s : List Char}
    (h : ∀ i t, layout i (record.content x i) t → layout' i (record.content x i) t)
    (hs : record.MemberText layout x member s) : record.MemberText layout' x member s := by
  cases member with
  | field i => exact MemberOf.imp (h i) hs
  | other key => exact hs

theorem ObjectText.imp {layout layout' : record.Layout} {members : List (Member ι)} {s : List Char}
    (h : ∀ i t, layout i (record.content x i) t → layout' i (record.content x i) t)
    (hs : record.ObjectText layout x members s) : record.ObjectText layout' x members s := by
  obtain ⟨t, ht, rfl⟩ := hs
  exact ⟨t, ht.imp fun _ _ _ hm ↦ hm.imp h, rfl⟩

theorem ArrayText.imp {layout layout' : record.Layout} {fields : List ι} {s : List Char}
    (h : ∀ i t, layout i (record.content x i) t → layout' i (record.content x i) t)
    (hs : record.ArrayText layout x fields s) : record.ArrayText layout' x fields s := by
  obtain ⟨t, ht, rfl⟩ := hs
  exact ⟨t, ht.imp fun i _ _ hi ↦ hi.imp (h i), rfl⟩

theorem field?_key (h : record.Lawful) (i : ι) : record.field? (record.key i) = some i := by
  unfold field?
  cases hfind : record.fields.find? fun j ↦ record.key j == record.key i with
  | none =>
    have hno := List.find?_eq_none.1 hfind i (record.mem_fields i)
    exact absurd (beq_self_eq_true _) hno
  | some j =>
    have hkey : record.key j = record.key i := by simpa using List.find?_some hfind
    rw [h.key_injective j i hkey]

theorem field?_other {key : String} (h : ∀ i, record.key i ≠ key) : record.field? key = none :=
  List.find?_eq_none.2 fun i _ ↦ by simpa using h i

theorem finish_of_final {given : record.Given} {content : (i : ι) → record.Content i}
    (h : ∀ i, record.final? given i = some (content i)) :
    record.finish given = .ok (record.build content) := by
  unfold finish
  split
  · rename_i i hfind
    have hnone := List.find?_some hfind
    simp [h i] at hnone
  · refine congrArg (fun content ↦ Except.ok (record.build content)) ?_
    funext i
    simp only [h i, Option.get_some]

theorem finish_missing {given : record.Given} {i : ι}
    (h : record.fields.find? (fun j ↦ (record.final? given j).isNone) = some i) :
    record.finish given = .error (.missingField (record.key i)) := by
  unfold finish
  split
  · rename_i j hj
    cases hj.symm.trans h
    rfl
  · rename_i hnone
    cases hnone.symm.trans h

variable [DecidableEq ι]

def givenOf (record : Record ι α) (x : α) (fields : List ι) : record.Given :=
  fun i ↦ if i ∈ fields then some (record.content x i) else none

theorem givenOf_nil : record.givenOf x [] = record.noneGiven := by
  funext i
  simp [givenOf, noneGiven]

theorem givenOf_congr {fields others : List ι} (h : ∀ i, i ∈ fields ↔ i ∈ others) :
    record.givenOf x fields = record.givenOf x others := by
  funext i
  simp only [givenOf, h]

theorem set_givenOf (i : ι) (fields : List ι) :
    (record.givenOf x fields).set i (record.content x i) = record.givenOf x (i :: fields) := by
  funext j
  by_cases h : i = j
  · subst h
    simp [Given.set, givenOf]
  · simp [Given.set, givenOf, h, Ne.symm h]

theorem finish_of_content {fields : List ι} (h : ∀ i, i ∈ fields) :
    record.finish (record.givenOf x fields) = .ok (record.build (record.content x)) :=
  finish_of_final fun i ↦ by simp [final?, givenOf, h i]

section Members

variable {key : String} {text : List Char → Prop} {first : Bool} {s t rest : List Char}
variable {given : record.Given} {i : ι}

theorem readMembers_end {gap : List Char} (hgap : IsSpaces gap) (given : record.Given)
    (first : Bool) (rest : List Char) :
    record.readMembers given first (gap ++ '\x7d' :: rest) = .ok (given, '\x7d' :: rest) := by
  rw [readMembers, nextKey_end hgap]

theorem readMembers_field (hl : record.Lawful) (hg : given i = none) {y : record.Content i}
    (hs : MemberOf (record.key i) ((record.codec i).ReadsAs y) s) (hrest : Breaks inNumber rest)
    (ht : NextIn (s ++ rest) first t) :
    ∃ gap, IsSpaces gap ∧ record.readMembers given first t =
      record.readMembers (given.set i y) false (gap ++ rest) := by
  obtain ⟨r, r', v, hquote, hkey, hcolon, ⟨gap, w, gap', hgap, hw, hgap', rfl⟩, hlt⟩ :=
    hs.reads rest
  have hread := hw.read_append gap (gap' ++ rest) hgap (breaks_gap hgap' hrest)
  have hlt' : (gap' ++ rest).length < t.length := by
    have hle := ht.length_le
    simp only [List.length_append] at hlt hle ⊢
    omega
  refine ⟨gap', hgap', ?_⟩
  rw [List.append_assoc, List.append_assoc] at hcolon
  rw [readMembers, nextKey_quote ht hquote]
  simp only [hkey, field?_key hl, hg, hcolon, hread, if_pos hlt', bind, Except.bind,
    Option.isSome_none, Bool.false_eq_true, if_false]

theorem readMembers_other (hother : ∀ i, record.key i ≠ key) (hs : MemberOf key (IsPiece .value) s)
    (hrest : Breaks inNumber rest) (ht : NextIn (s ++ rest) first t) :
    ∃ gap, IsSpaces gap ∧
      record.readMembers given first t = record.readMembers given false (gap ++ rest) := by
  obtain ⟨r, r', v, hquote, hkey, hcolon, ⟨gap, w, gap', hgap, hw, hgap', rfl⟩, hlt⟩ :=
    hs.reads rest
  have hskip := skipValue_append hgap hw (breaks_gap hgap' hrest)
  have hlt' : (gap' ++ rest).length < t.length := by
    have hle := ht.length_le
    simp only [List.length_append] at hlt hle ⊢
    omega
  refine ⟨gap', hgap', ?_⟩
  rw [List.append_assoc, List.append_assoc] at hcolon
  rw [readMembers, nextKey_quote ht hquote]
  simp only [hkey, field?_other hother, hcolon, hskip, if_pos hlt', bind, Except.bind]

theorem readMembers_member (hl : record.Lawful) {member : Member ι} {done : List ι}
    (hs : record.MemberText (fun i ↦ (record.codec i).ReadsAs) x member s)
    (hnd : (fieldsOf [member] ++ done).Nodup) (hrest : Breaks inNumber rest)
    (ht : NextIn (s ++ rest) first t) :
    ∃ gap, IsSpaces gap ∧ record.readMembers (record.givenOf x done) first t =
      record.readMembers (record.givenOf x (fieldsOf [member] ++ done)) false (gap ++ rest) := by
  cases member with
  | field i =>
    have hi : record.givenOf x done i = none := if_neg (List.nodup_cons.1 hnd).1
    obtain ⟨gap, hgap, hread⟩ := readMembers_field hl hi hs hrest ht
    exact ⟨gap, hgap, by rw [hread, set_givenOf]; rfl⟩
  | other key => exact readMembers_other hs.1 hs.2 hrest ht

omit [DecidableEq ι] in
theorem fieldsOf_cons_perm (member : Member ι) (members : List (Member ι)) (done : List ι) :
    (fieldsOf members ++ (fieldsOf [member] ++ done)).Perm
      (fieldsOf (member :: members) ++ done) := by
  cases member with
  | field i => exact List.perm_middle
  | other key => exact .refl _

/-- The members of an object in any order. No field is given twice, by them or before. -/
theorem readMembers_row (hl : record.Lawful) {members : List (Member ι)} {done : List ι}
    (h : Row (record.MemberText (fun i ↦ (record.codec i).ReadsAs) x) members s)
    (hnd : (fieldsOf members ++ done).Nodup) (ht : NextIn (s ++ '\x7d' :: rest) first t)
    (hne : members ≠ [] ∨ first = true) :
    record.readMembers (record.givenOf x done) first t =
      .ok (record.givenOf x (fieldsOf members ++ done), '\x7d' :: rest) := by
  induction h generalizing first t done with
  | @empty gap hgap =>
    obtain hne | rfl := hne
    · exact absurd rfl hne
    · cases ht with
      | first => exact readMembers_end hgap _ true rest
  | last hs =>
    obtain ⟨gap, hgap, hread⟩ := readMembers_member hl hs hnd (breaks_brace rest) ht
    rw [hread, readMembers_end hgap]
  | @more member next others _ _ hs _ ih =>
    have hperm := fieldsOf_cons_perm member (next :: others) done
    have hnd' := hperm.nodup_iff.2 hnd
    rw [List.append_assoc, List.cons_append] at ht
    obtain ⟨gap, hgap, hread⟩ := readMembers_member hl hs (List.nodup_append.1 hnd').2.1
      (breaks_comma _) ht
    rw [hread, ih hnd' (.comma hgap) (.inl (by simp)), givenOf_congr fun i ↦ hperm.mem_iff]

end Members

section Elements

variable {first : Bool} {s t rest : List Char} {given : record.Given}

theorem readFields_element {i : ι} {y : record.Content i} (fields : List ι)
    (hs : Padded ((record.codec i).ReadsAs y) s) (hrest : Breaks inNumber rest)
    (ht : NextIn (s ++ rest) first t) :
    ∃ gap, IsSpaces gap ∧ record.readFields given first (i :: fields) t =
      record.readFields (given.set i y) false fields (gap ++ rest) := by
  obtain ⟨r, gap, hgap, hnext, hread, -⟩ := Codec.nextElement_padded hs hrest ht
  refine ⟨gap, hgap, ?_⟩
  rw [readFields]
  simp only [hnext, hread, bind, Except.bind, if_true]

theorem readFields_end {gap : List Char} (hgap : IsSpaces gap) (given : record.Given)
    (first : Bool) {missing : List ι} (hne : missing ≠ []) (rest : List Char) :
    record.readFields given first missing (gap ++ ']' :: rest) =
      if missing.all fun i ↦ (record.default? i).isSome then .ok (given, ']' :: rest)
      else .error (.ofWhole (.tooShort (record.fields.length - missing.length) record.name
        record.fields.length) (']' :: rest)) := by
  obtain ⟨i, missing, rfl⟩ := List.exists_cons_of_ne_nil hne
  rw [readFields, nextElement_end hgap]
  rfl

theorem readFields_row {fields done : List ι} (missing : List ι)
    (h : Row (fun i ↦ Padded ((record.codec i).ReadsAs (record.content x i))) fields s)
    (ht : NextIn (s ++ ']' :: rest) first t) (hne : fields ≠ [] ∨ first = true) :
    ∃ gap first', IsSpaces gap ∧
      record.readFields (record.givenOf x done) first (fields ++ missing) t =
        record.readFields (record.givenOf x (fields ++ done)) first' missing
          (gap ++ ']' :: rest) := by
  induction h generalizing first t done with
  | @empty gap hgap =>
    obtain hne | rfl := hne
    · exact absurd rfl hne
    · cases ht with
      | first => exact ⟨gap, true, hgap, rfl⟩
  | last hs =>
    obtain ⟨gap, hgap, hread⟩ := readFields_element missing hs (breaks_bracket rest) ht
    exact ⟨gap, false, hgap, by rw [List.singleton_append, hread, set_givenOf]; rfl⟩
  | @more i j others s s' hs _ ih =>
    rw [List.append_assoc, List.cons_append] at ht
    obtain ⟨gap, hgap, hread⟩ :=
      readFields_element ((j :: others) ++ missing) hs (breaks_comma _) ht
    obtain ⟨gap', first', hgap', hothers⟩ := ih (.comma hgap) (.inl (by simp))
    have hmem (k : ι) : k ∈ (j :: others) ++ i :: done ↔ k ∈ i :: ((j :: others) ++ done) :=
      List.perm_middle.mem_iff
    refine ⟨gap', first', hgap', ?_⟩
    rw [List.cons_append, hread, set_givenOf, hothers, givenOf_congr hmem]
    rfl

end Elements

def resultAt {α : Type} (rest : List Char) : Except Reason α → Except Fault (α × List Char)
  | .ok x => .ok (x, rest)
  | .error reason => .error (.here reason rest)

section Whole

variable {gap s : List Char} (hgap : IsSpaces gap)
include hgap

/-- An object is read as what the fields come to that it gives. -/
theorem read_object (hl : record.Lawful) {members : List (Member ι)}
    (h : record.ObjectText (fun i ↦ (record.codec i).ReadsAs) x members s)
    (hnd : (fieldsOf members).Nodup) (rest : List Char) :
    record.read (gap ++ (s ++ rest)) =
      resultAt rest (record.finish (record.givenOf x (fieldsOf members))) := by
  obtain ⟨t, ht, rfl⟩ := h
  have hread : record.readMembers (record.givenOf x []) true (t ++ '\x7d' :: rest) =
      .ok (record.givenOf x (fieldsOf members ++ []), '\x7d' :: rest) :=
    readMembers_row hl ht (by simpa using hnd) .first (.inr rfl)
  rw [givenOf_nil, List.append_nil] at hread
  rw [List.cons_append, List.append_assoc, List.singleton_append]
  simp only [read, skipSpace_append hgap, skipSpace_cons opens_brace.space, hread, finishWith, bind,
    Except.bind]
  cases record.finish (record.givenOf x (fieldsOf members)) with
  | ok y => exact closeWith_endObject y rest
  | error reason => exact closeWith_endObject_ofWhole reason rest

/-- An array is read as what its elements come to, if the missing ones may be left out. -/
theorem read_array {fields missing : List ι} (hfields : fields ++ missing = record.fields)
    (h : record.ArrayText (fun i ↦ (record.codec i).ReadsAs) x fields s) (rest : List Char) :
    record.read (gap ++ (s ++ rest)) = resultAt rest
      (if missing.all fun i ↦ (record.default? i).isSome then
        record.finish (record.givenOf x fields)
      else .error (.tooShort fields.length record.name record.fields.length)) := by
  obtain ⟨t, ht, rfl⟩ := h
  obtain ⟨gap', first, hgap', hread⟩ : ∃ gap first, IsSpaces gap ∧
      record.readFields (record.givenOf x []) true (fields ++ missing) (t ++ ']' :: rest) =
        record.readFields (record.givenOf x (fields ++ [])) first missing (gap ++ ']' :: rest) :=
    readFields_row missing ht .first (.inr rfl)
  rw [givenOf_nil, List.append_nil, hfields] at hread
  have hfinish {gap : List Char} (hgap : IsSpaces gap) :
      closeWith endArray (record.finishWith
        (.ok (record.givenOf x fields, gap ++ ']' :: rest))) =
      resultAt rest (record.finish (record.givenOf x fields)) := by
    simp only [finishWith, bind, Except.bind]
    cases record.finish (record.givenOf x fields) with
    | ok y => exact closeWith_endArray hgap y rest
    | error reason => exact closeWith_endArray_ofWhole hgap reason rest
  rw [List.cons_append, List.append_assoc, List.singleton_append]
  simp only [read, skipSpace_append hgap, skipSpace_cons opens_bracket.space, hread]
  by_cases hne : missing = []
  · subst hne
    simp only [readFields, hfinish hgap', List.all_nil, if_true]
  · have hlength : record.fields.length - missing.length = fields.length := by
      rw [← hfields, List.length_append]
      omega
    rw [readFields_end hgap' _ _ hne, hlength]
    split
    · exact hfinish isSpaces_nil
    · exact closeWith_endArray_ofWhole isSpaces_nil _ rest

end Whole

section Reads

variable {s : List Char} (hl : record.Lawful)
include hl

theorem reads_object {members : List (Member ι)}
    (h : record.ObjectText (fun i ↦ (record.codec i).ReadsAs) x members s)
    (hperm : (fieldsOf members).Perm record.fields) : record.toCodec.ReadsAs x s where
  opens := opens_objectOf h
  read_append gap rest hgap _ := by
    have hread := read_object hgap hl h (hperm.nodup_iff.2 hl.nodup) rest
    rw [finish_of_content fun i ↦ hperm.mem_iff.2 (record.mem_fields i), hl.build_content] at hread
    exact hread

theorem reads_array (h : record.ArrayText (fun i ↦ (record.codec i).ReadsAs) x record.fields s) :
    record.toCodec.ReadsAs x s where
  opens := opens_arrayOf h
  read_append gap rest hgap _ := by
    have hread := read_array hgap (List.append_nil record.fields) h rest
    rw [finish_of_content record.mem_fields, hl.build_content] at hread
    exact hread

/-- A record is read back when each of its fields is. -/
theorem toCodec_restores (hx : ∀ i, (record.codec i).Restores (record.content x i)) :
    record.toCodec.Restores x := by
  have hfields : (fieldsOf (record.fields.map .field)).Perm record.fields := by
    rw [fieldsOf, List.filterMap_map]
    exact .of_eq List.filterMap_some
  have htext : (record.toCodec.write x).toList = '\x7b' :: ([','].intercalate
      (record.fields.map fun i ↦ (writeString (record.key i)).toList ++
        ':' :: ((record.codec i).write (record.content x i)).toList) ++ ['\x7d']) := by
    change (record.write x).toList = _
    rw [write, toList_writeObject, List.map_map]
    rfl
  have hmember (i : ι) : record.MemberText (fun i ↦ (record.codec i).ReadsAs) x (.field i)
      ((writeString (record.key i)).toList ++
        ':' :: ((record.codec i).write (record.content x i)).toList) :=
    memberOf_write (record.key i) (hx i)
  exact reads_object hl ⟨_, (row_intercalate fun i _ ↦ hmember i).of_map, htext⟩ hfields

end Reads

end Record

namespace Choice

variable {α : Type} {choice : Choice α} {name : String} {x : α} {s : List Char}

theorem readName_spells {variant : Variant α} (h : choice.lookup name = some variant)
    (hs : SpellsString name s) (rest : List Char) :
    ∃ t, s ++ rest = '"' :: t ∧ choice.readName t = .ok (variant, rest) := by
  obtain ⟨t, ht, hread⟩ := readStringRest_spells hs rest
  refine ⟨t, ht, ?_⟩
  simp only [readName, hread, h, bind, Except.bind, pure, Except.pure]

theorem readMember_eq {variant : Variant α} (h : choice.lookup name = some variant)
    {text : List Char → Prop} (hs : MemberOf name text s) (rest : List Char) :
    ∃ v, Padded text v ∧ choice.readMember (s ++ rest) =
      match variant with
      | .single x => (readNull (v ++ rest)).map fun (_, s) ↦ (x, s)
      | .holding read => read (v ++ rest) := by
  obtain ⟨r, r', v, hquote, hkey, hcolon, hv, -⟩ := hs.reads rest
  refine ⟨v, hv, ?_⟩
  simp only [readMember, openName, hquote, readName, hkey, h, hcolon, bind, Except.bind, pure,
    Except.pure]
  cases variant <;> rfl

theorem read_of_member {gap gap' t rest : List Char} (hgap : IsSpaces gap) (hgap' : IsSpaces gap')
    (h : choice.readMember t = .ok (x, gap' ++ '\x7d' :: rest)) :
    choice.read (gap ++ '\x7b' :: t) = .ok (x, rest) := by
  have hend : skipSpace (gap' ++ '\x7d' :: rest) = '\x7d' :: rest :=
    (skipSpace_append hgap' _).trans (skipSpace_cons rfl rest)
  simp only [read, skipSpace_append hgap, skipSpace_cons opens_brace.space, h, hend, bind,
    Except.bind, pure, Except.pure]

section Reads

variable (write : α → String)

theorem reads_name (h : choice.lookup name = some (.single x)) (hs : SpellsString name s) :
    (Codec.mk write choice.read).ReadsAs x s where
  opens := opens_spells hs
  read_append gap rest hgap _ := by
    obtain ⟨t, ht, hname⟩ := readName_spells h hs rest
    simp only [read, ht, skipSpace_append hgap, skipSpace_cons opens_quote.space, readBare, hname,
      bind, Except.bind, pure, Except.pure]

theorem reads_null (h : choice.lookup name = some (.single x))
    (hs : ObjectOf (MemberOf name (· = ['n', 'u', 'l', 'l'])) s) :
    (Codec.mk write choice.read).ReadsAs x s where
  opens := opens_objectOf hs
  read_append gap rest hgap _ := by
    obtain ⟨t, ht, rfl⟩ := hs
    obtain ⟨v, ⟨gap₁, _, gap₂, hgap₁, rfl, hgap₂, rfl⟩, hread⟩ :=
      readMember_eq h ht ('\x7d' :: rest)
    have hnull : readNull (gap₁ ++ (['n', 'u', 'l', 'l'] ++ gap₂) ++ '\x7d' :: rest) =
        .ok ((), gap₂ ++ '\x7d' :: rest) := by
      simp only [List.append_assoc, readNull, skipSpace_append hgap₁]
      rfl
    rw [hnull] at hread
    rw [List.cons_append, List.append_assoc, List.singleton_append]
    exact read_of_member hgap hgap₂ hread

theorem reads_holding {content : Reader α} (h : choice.lookup name = some (.holding content))
    {text : List Char → Prop} (hs : ObjectOf (MemberOf name text) s)
    (hcontent : ∀ t gap rest, text t → IsSpaces gap → Breaks inNumber rest →
      content (gap ++ (t ++ rest)) = .ok (x, rest)) :
    (Codec.mk write choice.read).ReadsAs x s where
  opens := opens_objectOf hs
  read_append gap rest hgap _ := by
    obtain ⟨t, ht, rfl⟩ := hs
    obtain ⟨v, ⟨gap₁, w, gap₂, hgap₁, hw, hgap₂, rfl⟩, hread⟩ :=
      readMember_eq h ht ('\x7d' :: rest)
    simp only [List.append_assoc,
      hcontent w gap₁ _ hw hgap₁ (breaks_gap hgap₂ (breaks_brace rest))] at hread
    rw [List.cons_append, List.append_assoc, List.singleton_append]
    exact read_of_member hgap hgap₂ hread

end Reads

theorem name_restores {name : α → String} (h : choice.lookup (name x) = some (.single x)) :
    (Codec.mk (fun x ↦ writeString (name x)) choice.read).Restores x :=
  reads_name _ h (spellsString_writeString (name x))

end Choice

end OneTape.Json
