import OneTape.Json.Skip
import OneTape.Proofs.Json.Codec
import OneTape.Proofs.Json.Grammar

namespace OneTape.Json

open Text

variable {gap s r rest : List Char} {stage : Stage}

theorem skipString_plain {c : Char} (hq : c ≠ '"') (hb : c ≠ '\\') (hc : isControl c = false)
    (rest : List Char) : skipString (c :: rest) = skipString rest := by
  rw [skipString.eq_6 c rest hq (fun h ↦ absurd h hb) (fun _ h ↦ absurd h hb)
    (fun _ _ h ↦ absurd h hb), hc]
  rfl

theorem skipString_short {letter c : Char} (h : shortEscape? letter = some c) (hu : letter ≠ 'u')
    (rest : List Char) : skipString ('\\' :: letter :: rest) = skipString rest := by
  rw [skipString.eq_5 letter rest hu, h]
  rfl

theorem skipString_unit {n : Nat} (h : readUnit s = .ok (n, rest)) :
    skipString ('\\' :: 'u' :: s) = skipString rest := by
  rw [skipString]
  split
  · rename_i hf
    cases hf.symm.trans h
  · rename_i hn
    cases hn.symm.trans h
    rfl

theorem skipString_part (h : IsStringPart s) (rest : List Char) :
    skipString (s ++ rest) = skipString rest := by
  cases h with
  | plain hcontrol hquote hbackslash =>
    exact skipString_plain hquote hbackslash (isControl_eq_false hcontrol) rest
  | short h =>
    obtain ⟨hshort, hu⟩ := shortEscape?_of_mem h
    exact skipString_short hshort hu rest
  | unit h => exact skipString_unit (readUnit_append h rest)

theorem skipString_flatten {parts : List (List Char)} (h : ∀ part ∈ parts, IsStringPart part)
    (rest : List Char) : skipString (parts.flatten ++ '"' :: rest) = .ok rest := by
  induction parts with
  | nil => rw [List.flatten_nil, List.nil_append, skipString]
  | cons part parts ih =>
    obtain ⟨hpart, hparts⟩ := List.forall_mem_cons.1 h
    rw [List.flatten_cons, List.append_assoc, skipString_part hpart, ih hparts]

theorem skipString_of_isString (h : IsString s) (rest : List Char) :
    ∃ t, s ++ rest = '"' :: t ∧ skipString t = .ok rest := by
  obtain ⟨parts, hparts, rfl⟩ := h
  exact ⟨_, by simp, skipString_flatten hparts rest⟩

theorem skipFrames_value (frames : List Frame) (s : List Char) : skipFrames frames .value s =
    match skipSpace s with
    | '[' :: r => skipFrames (.array :: frames) .first r
    | '\x7b' :: r => skipFrames (.object :: frames) .first r
    | r => (skipScalar r).bind (skipFrames frames .comma) := by
  conv_lhs => rw [skipFrames.eq_1]
  generalize skipSpace s = u
  split
  · rfl
  · rfl
  · split <;> simp_all [Except.bind]

theorem skipFrames_array (frames : List Frame) (h : stage ≠ .value) (s : List Char) :
    skipFrames (.array :: frames) stage s =
      match skipSpace s with
      | [] => .error (.next .endInList [])
      | ']' :: r => skipFrames frames .comma r
      | c :: r =>
        if stage = .first then skipFrames (.array :: frames) .value (c :: r)
        else if c = ',' then skipFrames (.array :: frames) .value r
        else .error (.next .noCommaOrBracket (c :: r)) := by
  conv_lhs => rw [skipFrames.eq_3 stage s frames h]
  generalize skipSpace s = u
  split
  · rfl
  · rfl
  · simp_all

theorem skipFrames_object (frames : List Frame) (h : stage ≠ .value) (s : List Char) :
    skipFrames (.object :: frames) stage s =
      match skipSpace s with
      | [] => .error (.next .endInObject [])
      | '\x7d' :: r => skipFrames frames .comma r
      | c :: r =>
        if stage = .comma ∧ c ≠ ',' then .error (.next .noCommaOrBrace (c :: r))
        else (skipKey (if stage = .first then c :: r else r)).bind
          (skipFrames (.object :: frames) .value) := by
  conv_lhs => rw [skipFrames.eq_4 stage s frames h]
  generalize skipSpace s = u
  split
  · rfl
  · rfl
  · split
    · simp_all
    · split <;> simp_all [Except.bind]

theorem skipFrames_skipSpace (frames : List Frame) (s : List Char) :
    skipFrames frames .value (skipSpace s) = skipFrames frames .value s := by
  rw [skipFrames_value, skipFrames_value frames s, skipSpace_skipSpace]

section Step

variable {c : Char} (frames : List Frame)

theorem skipFrames_scalar (h : skipScalar (skipSpace s) = .ok r) :
    skipFrames frames .value s = skipFrames frames .comma r := by
  rw [skipFrames_value]
  split
  · rename_i heq
    rw [heq] at h
    cases h
  · rename_i heq
    rw [heq] at h
    cases h
  · rw [h]
    rfl

theorem skipFrames_openArray (h : skipSpace s = '[' :: r) :
    skipFrames frames .value s = skipFrames (.array :: frames) .first r := by
  rw [skipFrames_value, h]
  rfl

theorem skipFrames_openObject (h : skipSpace s = '\x7b' :: r) :
    skipFrames frames .value s = skipFrames (.object :: frames) .first r := by
  rw [skipFrames_value, h]
  rfl

theorem skipFrames_closeArray (hstage : stage ≠ .value) (h : skipSpace s = ']' :: r) :
    skipFrames (.array :: frames) stage s = skipFrames frames .comma r := by
  rw [skipFrames_array _ hstage, h]
  rfl

theorem skipFrames_closeObject (hstage : stage ≠ .value) (h : skipSpace s = '\x7d' :: r) :
    skipFrames (.object :: frames) stage s = skipFrames frames .comma r := by
  rw [skipFrames_object _ hstage, h]
  rfl

theorem skipFrames_firstElement (h : skipSpace s = c :: r) (hc : c ≠ ']') :
    skipFrames (.array :: frames) .first s = skipFrames (.array :: frames) .value s := by
  rw [← skipFrames_skipSpace, skipFrames_array _ (by decide), h]
  split
  · rename_i heq
    cases heq
  · rename_i heq
    exact absurd (List.cons.inj heq).1 hc
  · rename_i heq
    cases heq
    rfl

theorem skipFrames_nextElement (h : skipSpace s = ',' :: r) :
    skipFrames (.array :: frames) .comma s = skipFrames (.array :: frames) .value r := by
  rw [skipFrames_array _ (by decide), h]
  rfl

theorem skipFrames_firstKey (h : skipKey s = .ok r) :
    skipFrames (.object :: frames) .first s = skipFrames (.object :: frames) .value r := by
  have hkey : skipKey (skipSpace s) = .ok r := by
    rwa [skipKey, skipSpace_skipSpace, ← skipKey.eq_1]
  rw [skipFrames_object _ (by decide)]
  split
  · rename_i heq
    rw [heq] at hkey
    cases hkey
  · rename_i heq
    rw [heq] at hkey
    cases hkey
  · rename_i heq
    rw [heq] at hkey
    rw [if_neg fun hc ↦ absurd hc.1 (by decide), if_pos rfl, hkey]
    rfl

theorem skipFrames_nextKey {t : List Char} (h : skipSpace s = ',' :: t) (hkey : skipKey t = .ok r) :
    skipFrames (.object :: frames) .comma s = skipFrames (.object :: frames) .value r := by
  rw [skipFrames_object _ (by decide), h]
  change (if Stage.comma = .comma ∧ ',' ≠ ',' then _ else (skipKey t).bind _) = _
  rw [if_neg (by decide), hkey]
  rfl

end Step

theorem skipFrames_gap (h : IsSpaces gap) (frames : List Frame) (s : List Char) :
    skipFrames frames .value (gap ++ s) = skipFrames frames .value s := by
  rw [← skipFrames_skipSpace, skipSpace_append h, skipFrames_skipSpace]

theorem skipFrames_gap_comma (h : IsSpaces gap) (frame : Frame) (frames : List Frame)
    (s : List Char) :
    skipFrames (frame :: frames) .comma (gap ++ s) = skipFrames (frame :: frames) .comma s := by
  cases frame with
  | array => rw [skipFrames_array _ (by decide), skipFrames_array _ (by decide), skipSpace_append h]
  | object =>
    rw [skipFrames_object _ (by decide), skipFrames_object _ (by decide), skipSpace_append h]

theorem skipScalar_digit {d : Char} (hd : d.isDigit = true) (s : List Char) :
    skipScalar (d :: s) = skipNumber (d :: s) := by
  have hne : ∀ {e : Char}, e.isDigit = false → d ≠ e := by
    rintro e he rfl
    cases he.symm.trans hd
  rw [skipScalar.eq_7 d s (hne rfl) (hne rfl) (hne rfl) (hne rfl) (hne rfl), if_pos hd]

theorem skipScalar_number (h : IsNumber s) (hrest : Breaks inNumber rest) :
    ∃ c t, s = c :: t ∧ Opens c ∧ skipScalar (s ++ rest) = .ok rest := by
  obtain ⟨sign, hsign, whole, fraction, exponent, hw, hf, he, rfl⟩ := h
  obtain ⟨x, hx⟩ := readNumeral_append .badNumber hw hf he hrest
  have hskip : skipNumber (whole ++ (fraction ++ exponent) ++ rest) = .ok rest := by
    rw [List.append_assoc, List.append_assoc, skipNumber, hx]
    rfl
  simp only [List.mem_cons, List.not_mem_nil, or_false] at hsign
  obtain rfl | rfl := hsign
  · obtain ⟨d, ds, rfl⟩ := List.exists_cons_of_ne_nil hw.1.1
    have hd : d.isDigit = true := hw.1.2 d List.mem_cons_self
    exact ⟨d, _, rfl, opens_isDigit hd, (skipScalar_digit hd _).trans hskip⟩
  · exact ⟨'-', _, rfl, ⟨rfl, by decide, by decide⟩, hskip⟩

theorem skipScalar_string (h : IsString s) (rest : List Char) :
    skipScalar (s ++ rest) = .ok rest := by
  obtain ⟨t, ht, hskip⟩ := skipString_of_isString h rest
  rw [ht]
  exact hskip

theorem leads_value (h : IsPiece .value s) : Leads s := by
  cases h with
  | null | true | false => exact leads_cons ⟨rfl, by decide, by decide⟩ _
  | number h =>
    obtain ⟨c, t, rfl, hc, -⟩ := skipScalar_number h breaks_nil
    exact leads_cons hc t
  | string h =>
    obtain ⟨parts, -, rfl⟩ := h
    exact leads_cons opens_quote _
  | emptyArray | array => exact leads_cons opens_bracket _
  | emptyObject | object => exact leads_cons opens_brace _

theorem leads_element (h : IsPiece .element s) : Leads s := by
  cases h with
  | element hgap h hgap' =>
    exact leads_append hgap ((leads_value h).append _)

theorem leads_elements (h : IsPiece .elements s) : Leads s := by
  cases h with
  | lastElement h => exact leads_element h
  | elements h => exact (leads_element h).append _

theorem skipKey_append (hgap : IsSpaces gap) (hkey : IsString s) {gap' : List Char}
    (hgap' : IsSpaces gap') (rest : List Char) :
    skipKey (gap ++ (s ++ (gap' ++ ':' :: rest))) = .ok rest := by
  obtain ⟨t, ht, hskip⟩ := skipString_of_isString hkey (gap' ++ ':' :: rest)
  rw [skipKey, skipSpace_append hgap, ht, skipSpace_cons opens_quote.space]
  simp only [hskip, readColon_append hgap', bind, Except.bind, pure, Except.pure]

/-- What passing over a part of a text comes to: reading goes on behind it, or behind what it is the
content of. -/
def Passed : Piece → List Char → Prop
  | .value, s => ∀ frames rest, Breaks inNumber rest →
      skipFrames frames .value (s ++ rest) = skipFrames frames .comma rest
  | .element, s => ∀ frame frames rest, Breaks inNumber rest →
      skipFrames (frame :: frames) .value (s ++ rest) = skipFrames (frame :: frames) .comma rest
  | .elements, s => ∀ frames rest,
      skipFrames (.array :: frames) .value (s ++ ']' :: rest) = skipFrames frames .comma rest
  | .member, s => ∀ frames rest, Breaks inNumber rest →
      skipFrames (.object :: frames) .first (s ++ rest) =
        skipFrames (.object :: frames) .comma rest ∧
      skipFrames (.object :: frames) .comma (',' :: (s ++ rest)) =
        skipFrames (.object :: frames) .comma rest
  | .members, s => ∀ frames rest,
      skipFrames (.object :: frames) .first (s ++ '\x7d' :: rest) = skipFrames frames .comma rest ∧
      skipFrames (.object :: frames) .comma (',' :: (s ++ '\x7d' :: rest)) =
        skipFrames frames .comma rest

theorem passed {piece : Piece} (h : IsPiece piece s) : Passed piece s := by
  -- On the grammar, for any frames around the part: those that it opens itself are on top of them.
  induction h with
  | null | true | false => exact fun frames rest _ ↦ skipFrames_scalar frames rfl
  | number h =>
    intro frames rest hrest
    obtain ⟨c, t, rfl, hc, hskip⟩ := skipScalar_number h hrest
    refine skipFrames_scalar frames ?_
    rwa [List.cons_append, skipSpace_cons hc.space]
  | string h =>
    intro frames rest _
    refine skipFrames_scalar frames ?_
    obtain ⟨parts, -, rfl⟩ := id h
    rw [List.cons_append, skipSpace_cons opens_quote.space]
    exact skipScalar_string h rest
  | @emptyArray gap hgap =>
    intro frames rest _
    rw [List.cons_append, List.append_assoc,
      skipFrames_openArray frames (skipSpace_cons opens_bracket.space _)]
    exact skipFrames_closeArray frames (by decide) (skipSpace_append hgap _)
  | @array s hs ih =>
    intro frames rest _
    rw [List.cons_append, List.append_assoc,
      skipFrames_openArray frames (skipSpace_cons opens_bracket.space _)]
    obtain ⟨c, t, ht, hc⟩ := (leads_elements hs).append (']' :: rest)
    exact (skipFrames_firstElement frames ht hc.bracket).trans (ih frames rest)
  | @emptyObject gap hgap =>
    intro frames rest _
    rw [List.cons_append, List.append_assoc,
      skipFrames_openObject frames (skipSpace_cons opens_brace.space _)]
    exact skipFrames_closeObject frames (by decide) (skipSpace_append hgap _)
  | @object s hs ih =>
    intro frames rest _
    rw [List.cons_append, List.append_assoc,
      skipFrames_openObject frames (skipSpace_cons opens_brace.space _)]
    exact (ih frames rest).1
  | element hgap hs hgap' ih =>
    intro frame frames rest hrest
    rw [List.append_assoc, List.append_assoc, skipFrames_gap hgap, ih _ _ (breaks_gap hgap' hrest),
      skipFrames_gap_comma hgap']
  | lastElement hs ih =>
    intro frames rest
    rw [ih _ _ _ (breaks_bracket rest)]
    exact skipFrames_closeArray frames (by decide) rfl
  | @elements s more hs hmore ih ihmore =>
    intro frames rest
    rw [List.append_assoc, List.cons_append, ih _ _ _ (breaks_comma _),
      skipFrames_nextElement frames rfl]
    exact ihmore frames rest
  | @member gap key gap' s hgap hkey hgap' hs ih =>
    intro frames rest hrest
    have hskip := skipKey_append hgap hkey hgap' (s ++ rest)
    simp only [List.append_assoc, List.cons_append]
    exact ⟨(skipFrames_firstKey frames hskip).trans (ih _ _ _ hrest),
      (skipFrames_nextKey frames rfl hskip).trans (ih _ _ _ hrest)⟩
  | lastMember hs ih =>
    intro frames rest
    rw [(ih frames _ (breaks_brace rest)).1, (ih frames _ (breaks_brace rest)).2]
    have hclose : skipFrames (.object :: frames) .comma ('\x7d' :: rest) =
        skipFrames frames .comma rest := skipFrames_closeObject frames (by decide) rfl
    exact ⟨hclose, hclose⟩
  | @members s more hs hmore ih ihmore =>
    intro frames rest
    rw [List.append_assoc, List.cons_append, (ih frames _ (breaks_comma _)).1,
      (ih frames _ (breaks_comma _)).2]
    exact ⟨(ihmore frames rest).2, (ihmore frames rest).2⟩

/-- A value is passed over to its end, whatever is in it. -/
theorem skipValue_append (hgap : IsSpaces gap) (h : IsPiece .value s)
    (hrest : Breaks inNumber rest) : skipValue (gap ++ (s ++ rest)) = .ok rest := by
  rw [skipValue, skipFrames_gap hgap, passed h [] rest hrest, skipFrames.eq_2 _ _ (by decide)]

end OneTape.Json
