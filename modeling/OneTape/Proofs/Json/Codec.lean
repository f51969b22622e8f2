import OneTape.Json.Codec
import OneTape.Proofs.Json.Number
import OneTape.Proofs.Json.String

namespace OneTape.Json

open Text

/-- The text is read as the value, with white space in front or without, whatever stands behind it
that does not make a number longer. -/
structure Codec.ReadsAs {α : Type} (codec : Codec α) (x : α) (s : List Char) : Prop where
  opens : ∃ c t, s = c :: t ∧ Opens c
  read_append : ∀ gap rest, IsSpaces gap → Breaks inNumber rest →
    codec.read (gap ++ (s ++ rest)) = .ok (x, rest)

def Codec.Restores {α : Type} (codec : Codec α) (x : α) : Prop :=
  codec.ReadsAs x (codec.write x).toList

theorem breaks_comma (s : List Char) : Breaks inNumber (',' :: s) := breaks_cons.2 rfl

theorem breaks_bracket (s : List Char) : Breaks inNumber (']' :: s) := breaks_cons.2 rfl

theorem breaks_brace (s : List Char) : Breaks inNumber ('\x7d' :: s) := breaks_cons.2 rfl

theorem intercalate_comma (text : List Char) (texts : List (List Char)) :
    [','].intercalate (text :: texts) = text ++ texts.flatMap (',' :: ·) := by
  induction texts generalizing text with
  | nil => simp
  | cons next texts ih => rw [List.intercalate_cons_cons, ih, List.flatMap_cons]; simp

theorem toList_writeArray (items : List String) :
    (writeArray items).toList = '[' :: ([','].intercalate (items.map String.toList) ++ [']']) := by
  simp [writeArray, String.toList_intercalate]

theorem toList_writeObject (members : List (String × String)) :
    (writeObject members).toList = '\x7b' :: ([','].intercalate (members.map fun member ↦
      (writeString member.1).toList ++ ':' :: member.2.toList) ++ ['\x7d']) := by
  simp [writeObject, String.toList_intercalate, Function.comp_def]

theorem row_intercalate {ι : Type} {text : ι → List Char → Prop} {f : ι → List Char} {is : List ι}
    (h : ∀ i ∈ is, text i (f i)) : Row text is ([','].intercalate (is.map f)) := by
  induction is with
  | nil => exact .empty isSpaces_nil
  | cons i is ih =>
    obtain ⟨hi, his⟩ := List.forall_mem_cons.1 h
    cases is with
    | nil => simpa using Row.last hi
    | cons j is => simpa using Row.more hi (ih his)

theorem padded_self {text : List Char → Prop} {s : List Char} (h : text s) : Padded text s :=
  ⟨[], s, [], isSpaces_nil, h, isSpaces_nil, by simp⟩

theorem memberOf_write {text : List Char → Prop} (key : String) {value : List Char}
    (h : text value) : MemberOf key text ((writeString key).toList ++ ':' :: value) :=
  ⟨[], _, [], value, isSpaces_nil, spellsString_writeString key, isSpaces_nil, padded_self h, by
    simp⟩

theorem objectOf_write {text : List Char → Prop} (key : String) {value : String}
    (h : text value.toList) : ObjectOf (MemberOf key text) (writeObject [(key, value)]).toList :=
  ⟨_, memberOf_write key h, by simp [toList_writeObject]⟩

namespace Codec

variable {α : Type} {codec item : Codec α} {x : α} {s rest : List Char}

theorem ReadsAs.length_lt (h : codec.ReadsAs x s) (rest : List Char) :
    rest.length < (s ++ rest).length := by
  obtain ⟨c, t, rfl, -⟩ := h.opens
  rw [List.length_append, List.length_cons]
  omega

theorem ReadsAs.leads (h : codec.ReadsAs x s) : Leads s := by
  obtain ⟨c, t, rfl, hc⟩ := h.opens
  exact leads_cons hc t

theorem ReadsAs.skipSpace_append (h : codec.ReadsAs x s) (rest : List Char) :
    skipSpace (s ++ rest) = s ++ rest := by
  obtain ⟨c, t, rfl, hc⟩ := h.opens
  exact skipSpace_cons hc.space _

theorem decode_of_reads {text : String} (h : Padded (codec.ReadsAs x) text.toList) :
    codec.decode text = .ok x := by
  obtain ⟨gap, s, gap', hgap, hs, hgap', htext⟩ := h
  have hread := hs.read_append gap gap' hgap (breaks_spaces hgap')
  simp [Codec.decode, readAll, htext, hread, skipSpace_spaces hgap', bind, Except.bind, pure,
    Except.pure, Except.mapError]

theorem Restores.decode (h : codec.Restores x) : codec.decode (codec.write x) = .ok x :=
  decode_of_reads (padded_self h)

theorem Restores.read_write (h : codec.Restores x) (hrest : Breaks inNumber rest) :
    codec.read ((codec.write x).toList ++ rest) = .ok (x, rest) :=
  h.read_append [] rest isSpaces_nil hrest

theorem natural_reads {n : Nat} (hn : n ≤ maxWord) : natural.ReadsAs n (Nat.toDigits 10 n) where
  opens := by
    obtain ⟨d, ds, hds, hd, -⟩ := head_toDigits n
    exact ⟨d, ds, hds, opens_isDigit hd⟩
  read_append gap rest hgap hrest := by
    have hread := readNatural_toDigits hn hrest
    rw [readNatural] at hread
    simp only [natural, readNatural, Json.skipSpace_append hgap]
    exact hread

theorem natural_restores {n : Nat} (hn : n ≤ maxWord) : natural.Restores n := by
  rw [Restores, show (natural.write n).toList = Nat.toDigits 10 n from toList_writeNatural n]
  exact natural_reads hn

theorem string_reads {x : String} (h : SpellsString x s) : string.ReadsAs x s where
  opens := opens_spells h
  read_append gap rest hgap _ := by
    obtain ⟨t, ht, hread⟩ := readStringRest_spells h rest
    simp only [string, readString, Json.skipSpace_append hgap, ht, skipSpace_cons opens_quote.space,
      hread]

theorem string_restores (x : String) : string.Restores x :=
  string_reads (spellsString_writeString x)

theorem nextElement_padded {first : Bool} {t : List Char} (hs : Padded (codec.ReadsAs x) s)
    (hrest : Breaks inNumber rest) (ht : NextIn (s ++ rest) first t) :
    ∃ r gap, IsSpaces gap ∧ nextElement first t = .ok (true, r) ∧
      codec.read r = .ok (x, gap ++ rest) ∧ (gap ++ rest).length < t.length := by
  obtain ⟨gap, v, gap', hgap, hv, hgap', rfl⟩ := hs
  have htext : gap ++ (v ++ gap') ++ rest = gap ++ (v ++ (gap' ++ rest)) := by simp
  rw [htext] at ht
  have hnext := nextElement_of_leads ht (leads_append hgap (hv.leads.append _))
  rw [Json.skipSpace_append hgap, hv.skipSpace_append] at hnext
  have hread := hv.read_append [] (gap' ++ rest) isSpaces_nil (breaks_gap hgap' hrest)
  have hlt : (gap' ++ rest).length < t.length := by
    have hle := ht.length_le
    have hlt := hv.length_lt (gap' ++ rest)
    rw [List.length_append] at hle
    omega
  exact ⟨v ++ (gap' ++ rest), gap', hgap', hnext, hread, hlt⟩

section Elements

variable {first : Bool} {t : List Char} {xs : List α}

theorem readElements_end {read : Reader α} {gap : List Char} (hgap : IsSpaces gap) (first : Bool)
    (s : List Char) : readElements read first (gap ++ ']' :: s) = .ok ([], ']' :: s) := by
  rw [readElements, nextElement_end hgap]

theorem readElements_cons (hs : Padded (item.ReadsAs x) s) (hrest : Breaks inNumber rest)
    (ht : NextIn (s ++ rest) first t) :
    ∃ gap, IsSpaces gap ∧ readElements item.read first t =
      (readElements item.read false (gap ++ rest)).map fun (xs, r) ↦ (x :: xs, r) := by
  obtain ⟨r, gap, hgap, hnext, hread, hlt⟩ := nextElement_padded hs hrest ht
  refine ⟨gap, hgap, ?_⟩
  rw [readElements, hnext]
  simp only [hread, if_pos hlt]

theorem readElements_row (h : Row (fun x ↦ Padded (item.ReadsAs x)) xs s)
    (ht : NextIn (s ++ ']' :: rest) first t) (hne : xs ≠ [] ∨ first = true) :
    readElements item.read first t = .ok (xs, ']' :: rest) := by
  induction h generalizing first t with
  | @empty gap hgap =>
    obtain hne | rfl := hne
    · exact absurd rfl hne
    · cases ht with
      | first => exact readElements_end hgap true rest
  | last hs =>
    obtain ⟨gap, hgap, hread⟩ := readElements_cons hs (breaks_bracket rest) ht
    rw [hread, readElements_end hgap]
    rfl
  | @more y z xs s s' hs _ ih =>
    rw [List.append_assoc, List.cons_append] at ht
    obtain ⟨gap, hgap, hread⟩ := readElements_cons hs (breaks_comma _) ht
    rw [hread, ih (.comma hgap) (.inl (by simp))]
    rfl

theorem list_reads (h : ArrayOf (Row (fun x ↦ Padded (item.ReadsAs x)) xs) s) :
    (list item).ReadsAs xs s := by
  refine ⟨opens_arrayOf h, fun gap rest hgap _ ↦ ?_⟩
  obtain ⟨t, ht, rfl⟩ := h
  rw [List.cons_append, List.append_assoc, List.singleton_append]
  simp only [list, Json.skipSpace_append hgap, skipSpace_cons opens_bracket.space,
    readElements_row ht .first (.inr rfl)]
  exact closeWith_endArray isSpaces_nil xs rest

theorem list_restores (h : ∀ x ∈ xs, item.Restores x) : (list item).Restores xs := by
  have htext : ((list item).write xs).toList =
      '[' :: ([','].intercalate (xs.map fun x ↦ (item.write x).toList) ++ [']']) := by
    change (writeArray (xs.map item.write)).toList = _
    rw [toList_writeArray, List.map_map]
    rfl
  exact list_reads ⟨_, row_intercalate fun x hx ↦ padded_self (h x hx), htext⟩

end Elements

end Codec

end OneTape.Json
