import OneTape.Proofs.Json.Record

namespace OneTape.Json

open Text

variable {s r : List Char}

/-- Passing over what is left in some frames does not depend on the frames around them. -/
theorem skipFrames_frames {inner : List Frame} {stage : Stage} (outer : List Frame)
    (h : skipFrames inner stage s = .ok r) (hinner : stage = .first → inner ≠ []) :
    skipFrames (inner ++ outer) stage s = skipFrames outer .comma r := by
  fun_induction skipFrames inner stage s with
  | case1 frames s t hopen ih => exact (skipFrames_openArray _ hopen).trans (ih h (by simp))
  | case2 frames s t hopen ih => exact (skipFrames_openObject _ hopen).trans (ih h (by simp))
  | case4 s frames t _ _ hskip ih => exact (skipFrames_scalar _ hskip).trans (ih h (by simp))
  | case5 stage s hstage =>
    cases h
    cases stage with
    | value => exact absurd rfl hstage
    | first => exact absurd rfl (hinner rfl)
    | comma => rfl
  | case7 s stage frames hstage t hclose ih =>
    exact (skipFrames_closeArray _ hstage hclose).trans (ih h (by simp))
  | case8 s frames c t hc hfirst _ ih =>
    rw [← hfirst, skipFrames_skipSpace] at h
    rw [← hfirst, skipFrames_skipSpace, skipFrames_skipSpace] at ih
    exact (skipFrames_firstElement _ hfirst hc).trans (ih h (by simp))
  | case9 s stage frames hstage t hfirst _ hcomma ih =>
    obtain rfl : stage = .comma := by cases stage <;> simp_all
    exact (skipFrames_nextElement _ hcomma).trans (ih h (by simp))
  | case12 s stage frames hstage t hclose ih =>
    exact (skipFrames_closeObject _ hstage hclose).trans (ih h (by simp))
  | case15 s stage frames hstage c t hc hnext hcomma u hkey ih =>
    have hread := ih h (by simp)
    cases stage with
    | value => exact absurd rfl hstage
    | first =>
      have hkey' : skipKey s = .ok u := by
        rw [dif_pos rfl, ← hnext] at hkey
        rwa [skipKey, skipSpace_skipSpace, ← skipKey.eq_1] at hkey
      exact (skipFrames_firstKey _ hkey').trans hread
    | comma =>
      rw [dif_neg (by decide)] at hkey
      obtain rfl : c = ',' := by simpa using hcomma
      exact (skipFrames_nextKey _ hnext hkey).trans hread
  | case3 | case6 | case10 | case11 | case13 | case14 => cases h

/-- The reader takes a value from the text: what it leaves is left when the value is passed over. -/
def TakesValue {α : Type} (read : Reader α) : Prop :=
  ∀ s x r, read s = .ok (x, r) → ∀ frames, skipFrames frames .value s = skipFrames frames .comma r

/-- A value by the grammar is taken to its own end, if it is read at all. -/
theorem TakesValue.rest_eq {α : Type} {read : Reader α} (h : TakesValue read)
    {gap v rest : List Char} {x : α} (hgap : IsSpaces gap) (hv : IsPiece .value v)
    (hrest : Breaks inNumber rest) (hread : read (gap ++ (v ++ rest)) = .ok (x, r)) : r = rest := by
  have hskip := skipValue_append hgap hv hrest
  rw [skipValue, h _ x r hread, skipFrames.eq_2 _ _ (by decide)] at hskip
  cases hskip
  rfl

theorem skipString_escape {c : Char} (h : readEscape s = .ok (c, r)) :
    skipString ('\\' :: s) = skipString r := by
  unfold readEscape at h
  split at h
  · cases h
  · obtain ⟨⟨n, t⟩, hunit, h⟩ := bind_ok_iff.1 h
    rw [skipString_unit hunit]
    dsimp only at h
    split at h
    · cases h
    · split at h
      · -- The other half of a pair is passed over as an escape of its own.
        unfold readLowUnit at h
        split at h
        · obtain ⟨⟨low, u⟩, hlow, h⟩ := bind_ok_iff.1 h
          rw [skipString_unit hlow]
          dsimp only at h
          split at h
          · injection h with h
            rw [(Prod.mk.inj h).2]
          · cases h
        all_goals cases h
      · injection h with h
        rw [(Prod.mk.inj h).2]
  · rename_i letter t hu
    split at h
    · rename_i c' hshort
      cases h
      exact skipString_short hshort hu r
    · cases h

theorem skipString_of_read {cs : List Char} (h : readCharacters s = .ok (cs, r)) :
    skipString s = .ok r := by
  fun_induction readCharacters s generalizing cs with
  | case1 => cases h
  | case2 s =>
    cases h
    rw [skipString]
  | case3 => cases h
  | case4 s c t hescape ih =>
    obtain ⟨⟨cs', r'⟩, hread, h⟩ := map_ok_iff.1 h
    cases h
    rw [skipString_escape hescape]
    exact ih hread
  | case5 => cases h
  | case6 c s hquote hbackslash hcontrol ih =>
    obtain ⟨⟨cs', r'⟩, hread, h⟩ := map_ok_iff.1 h
    cases h
    rw [skipString_plain hquote hbackslash (by simpa using hcontrol)]
    exact ih hread

theorem skipString_of_readRest {x : String} (h : readStringRest s = .ok (x, r)) :
    skipString s = .ok r := by
  obtain ⟨⟨cs, r'⟩, hread, h⟩ := map_ok_iff.1 h
  cases h
  exact skipString_of_read hread

theorem takesValue_string : TakesValue Codec.string.read := by
  intro s x r h frames
  simp only [Codec.string, readString] at h
  split at h
  · rename_i t heq
    refine skipFrames_scalar frames ?_
    rw [heq]
    exact skipString_of_readRest h
  · cases h

theorem skipNumber_of_read {negative : Bool} {n : Number}
    (h : readNumber negative s = .ok (n, r)) : skipNumber s = .ok r := by
  obtain ⟨⟨x, s'⟩, hread, h⟩ := bind_ok_iff.1 h
  obtain ⟨n', -, h⟩ := bind_ok_iff.1 h
  cases h
  rw [skipNumber, readNumeral_atEnd .badNumber hread]
  rfl

theorem takesValue_natural : TakesValue Codec.natural.read := by
  intro s n r h frames
  refine skipFrames_scalar frames ?_
  simp only [Codec.natural, readNatural] at h
  split at h
  · rename_i heq
    obtain ⟨⟨number, t⟩, hnumber, h⟩ := bind_ok_iff.1 h
    rw [heq]
    cases number <;> cases h
    exact skipNumber_of_read hnumber
  · split at h
    · rename_i hdigit
      obtain ⟨⟨number, t⟩, hnumber, h⟩ := bind_ok_iff.1 h
      obtain ⟨d, u, hs⟩ : ∃ d u, skipSpace s = d :: u := List.exists_cons_of_ne_nil fun hs ↦ by
        rw [hs] at hdigit
        cases hdigit
      rw [hs] at hnumber hdigit ⊢
      cases number <;> cases h
      rw [skipScalar_digit hdigit]
      exact skipNumber_of_read hnumber
    · cases h

def stageOf (first : Bool) : Stage := if first then .first else .comma

theorem stageOf_ne_value (first : Bool) : stageOf first ≠ .value := by cases first <;> decide

theorem skipFrames_of_nextElement {first : Bool} (h : nextElement first s = .ok (true, r))
    (frames : List Frame) : skipFrames (.array :: frames) (stageOf first) s =
      skipFrames (.array :: frames) .value r := by
  unfold nextElement at h
  split at h
  · cases h
  · cases h
  · rename_i t heq
    cases first with
    | true =>
      cases h
      rw [← heq, skipFrames_skipSpace]
      exact skipFrames_firstElement frames heq (by decide)
    | false =>
      refine (skipFrames_nextElement frames heq).trans ?_
      rw [← skipFrames_skipSpace]
      simp only [Bool.false_eq_true, if_false] at h
      split at h
      · cases h
      · cases h
      · cases h
        rfl
  · rename_i hend hbracket _
    cases first with
    | true =>
      cases h
      obtain ⟨c, t, heq⟩ := List.exists_cons_of_ne_nil hend
      rw [skipFrames_skipSpace]
      exact skipFrames_firstElement frames heq fun hc ↦ hbracket t (hc ▸ heq)
    | false => cases h

theorem skipSpace_of_nextElement {first : Bool} (h : nextElement first s = .ok (false, r)) :
    ∃ t, r = ']' :: t ∧ skipSpace s = ']' :: t := by
  unfold nextElement at h
  split at h
  · cases h
  · rename_i t heq
    cases h
    exact ⟨t, rfl, heq⟩
  · split at h
    · cases h
    · split at h <;> cases h
  · split at h <;> cases h

theorem endArray_ok {t : List Char} (h : endArray s = ⟨t, none⟩) : skipSpace s = ']' :: t := by
  unfold endArray at h
  split at h
  · cases h
  · rename_i heq
    cases h
    exact heq
  · split at h <;> cases h
  · cases h

theorem closeWith_ok {α : Type} {ending : List Char → Closing}
    {content : Except Fault (α × List Char)} {x : α} (h : closeWith ending content = .ok (x, r)) :
    ∃ t, content = .ok (x, t) ∧ ending t = ⟨r, none⟩ := by
  unfold closeWith at h
  split at h
  · cases h
  · split at h
    · rename_i heq
      cases h
      exact ⟨_, rfl, heq⟩
    · cases h

theorem skipFrames_of_readElements {α : Type} {read : Reader α} (h : TakesValue read)
    {first : Bool} {t : List Char} {xs : List α}
    (hread : Codec.readElements read first s = .ok (xs, t)) (hend : endArray t = ⟨r, none⟩)
    (frames : List Frame) :
    skipFrames (.array :: frames) (stageOf first) s = skipFrames frames .comma r := by
  fun_induction Codec.readElements read first s generalizing xs with
  | case1 => cases hread
  | case2 first s u hnext =>
    cases hread
    obtain ⟨v, rfl, hspace⟩ := skipSpace_of_nextElement hnext
    have hclose : skipSpace (']' :: v) = ']' :: r := endArray_ok hend
    rw [skipSpace_cons rfl] at hclose
    exact skipFrames_closeArray frames (stageOf_ne_value first) (hspace.trans hclose)
  | case3 => cases hread
  | case4 first s u hnext x v hx _ ih =>
    obtain ⟨⟨xs', t'⟩, hothers, hread⟩ := map_ok_iff.1 hread
    cases hread
    rw [skipFrames_of_nextElement hnext, h u x v hx]
    exact ih hothers
  | case5 => cases hread

theorem takesValue_list {α : Type} {item : Codec α} (h : TakesValue item.read) :
    TakesValue (Codec.list item).read := by
  intro s xs r hread frames
  simp only [Codec.list] at hread
  split at hread
  · rename_i t heq
    obtain ⟨u, helements, hend⟩ := closeWith_ok hread
    rw [skipFrames_openArray frames heq]
    exact skipFrames_of_readElements h helements hend frames
  · cases hread

theorem skipKey_of_read {t u : List Char} {key : String} (hs : skipSpace s = '"' :: t)
    (hkey : readStringRest t = .ok (key, u)) (hcolon : readColon u = .ok ((), r)) :
    skipKey s = .ok r := by
  rw [skipKey, hs]
  simp only [skipString_of_readRest hkey, hcolon, bind, Except.bind, pure, Except.pure]

theorem takesValue_readNull : TakesValue readNull := by
  intro s x r h frames
  refine skipFrames_scalar frames ?_
  unfold readNull at h
  split at h
  · rename_i t heq
    rw [heq]
    exact map_ok_iff.2 ⟨_, h, rfl⟩
  · cases h

section Choices

variable {α : Type} {choice : Choice α} {t u : List Char}

theorem readName_ok {variant : Variant α} (h : choice.readName t = .ok (variant, u)) :
    ∃ name, readStringRest t = .ok (name, u) ∧ choice.lookup name = some variant := by
  obtain ⟨⟨name, v⟩, hstring, h⟩ := bind_ok_iff.1 h
  dsimp only at h
  split at h
  · rename_i heq
    cases h
    exact ⟨name, hstring, heq⟩
  · cases h

theorem skipFrames_of_readMember {x : α}
    (h : ∀ name content, (name, .holding content) ∈ choice → TakesValue content)
    (hread : choice.readMember t = .ok (x, u)) (frames : List Frame) :
    skipFrames (.object :: frames) .first t = skipFrames (.object :: frames) .comma u := by
  obtain ⟨⟨⟨⟩, v⟩, hquote, hread⟩ := bind_ok_iff.1 hread
  obtain ⟨⟨variant, w⟩, hname, hread⟩ := bind_ok_iff.1 hread
  obtain ⟨⟨⟨⟩, w'⟩, hcolon, hread⟩ := bind_ok_iff.1 hread
  obtain ⟨name, hstring, hlookup⟩ := readName_ok hname
  have hopen : skipSpace t = '"' :: v := by
    unfold Choice.openName at hquote
    split at hquote
    · cases hquote
    · rename_i heq
      cases hquote
      exact heq
    · cases hquote
    · cases hquote
  rw [skipFrames_firstKey _ (skipKey_of_read hopen hstring hcolon)]
  cases variant with
  | single y =>
    obtain ⟨⟨⟨⟩, v'⟩, hnull, hread⟩ := bind_ok_iff.1 hread
    cases hread
    exact takesValue_readNull _ _ _ hnull _
  | holding content =>
    obtain ⟨others, more, hchoice, -⟩ := List.lookup_eq_some_iff.1 hlookup
    exact h name content (by simp [hchoice]) _ _ _ hread _

theorem takesValue_choice
    (h : ∀ name content, (name, .holding content) ∈ choice → TakesValue content) :
    TakesValue choice.read := by
  intro s x r hread frames
  unfold Choice.read at hread
  split at hread
  · cases hread
  · rename_i t heq
    obtain ⟨⟨variant, u⟩, hname, hread⟩ := bind_ok_iff.1 hread
    obtain ⟨name, hstring, -⟩ := readName_ok hname
    have hrest : u = r := by
      cases variant <;> cases hread
      rfl
    subst hrest
    refine skipFrames_scalar frames ?_
    rw [heq]
    exact skipString_of_readRest hstring
  · rename_i t heq
    obtain ⟨⟨y, u⟩, hmember, hread⟩ := bind_ok_iff.1 hread
    dsimp only at hread
    split at hread
    · cases hread
    · rename_i v hend
      cases hread
      rw [skipFrames_openObject frames heq, skipFrames_of_readMember h hmember]
      exact skipFrames_closeObject frames (by decide) hend
    · cases hread
  · cases hread

end Choices

theorem skipSpace_of_nextKey {first : Bool} (h : nextKey first s = .ok (false, r)) :
    ∃ t, r = '\x7d' :: t ∧ skipSpace s = '\x7d' :: t := by
  unfold nextKey at h
  split at h
  · cases h
  · rename_i t heq
    cases h
    exact ⟨t, rfl, heq⟩
  · split at h
    · cases h
    · split at h <;> cases h
  · split at h <;> cases h
  · cases h

theorem skipFrames_of_nextKey {first : Bool} {t u : List Char} {key : String}
    (h : nextKey first s = .ok (true, t)) (hkey : readStringRest t = .ok (key, u))
    (hcolon : readColon u = .ok ((), r)) (frames : List Frame) :
    skipFrames (.object :: frames) (stageOf first) s = skipFrames (.object :: frames) .value r := by
  unfold nextKey at h
  split at h
  · cases h
  · cases h
  · rename_i v heq
    cases first with
    | true => cases h
    | false =>
      simp only [Bool.false_eq_true, if_false] at h
      split at h
      · cases h
      · rename_i w hquote
        cases h
        exact skipFrames_nextKey frames heq (skipKey_of_read hquote hkey hcolon)
      · cases h
      · cases h
  · rename_i v heq
    cases first with
    | true =>
      cases h
      exact skipFrames_firstKey frames (skipKey_of_read heq hkey hcolon)
    | false => cases h
  · cases h

section Records

variable {ι α : Type} [DecidableEq ι] {record : Record ι α} {t : List Char}
variable {given given' : record.Given} {first : Bool}

/-- What a member with this key comes to, read from where its value starts: a field is given that
was not given before, or the value is passed over. -/
inductive MemberRead (record : Record ι α) (given : record.Given) (key : String) (s : List Char) :
    record.Given → List Char → Prop where
  | field {i : ι} {x : record.Content i} {r : List Char} (hkey : record.field? key = some i)
      (hgiven : given i = none) (hread : (record.codec i).read s = .ok (x, r)) :
      MemberRead record given key s (given.set i x) r
  | other {r : List Char} (hkey : record.field? key = none) (hskip : skipValue s = .ok r) :
      MemberRead record given key s given r

theorem readMembers_ok (hnext : nextKey first s = .ok (true, r))
    (hread : record.readMembers given first s = .ok (given', t)) :
    ∃ key u v given₁ w, readStringRest r = .ok (key, u) ∧ readColon u = .ok ((), v) ∧
      MemberRead record given key v given₁ w ∧ w.length < s.length ∧
      record.readMembers given₁ false w = .ok (given', t) := by
  rw [Record.readMembers, hnext] at hread
  obtain ⟨⟨key, u⟩, hkey, hread⟩ := bind_ok_iff.1 hread
  dsimp only at hread
  split at hread
  · rename_i hother
    obtain ⟨⟨⟨⟩, v⟩, hcolon, hread⟩ := bind_ok_iff.1 hread
    obtain ⟨w, hskip, hread⟩ := bind_ok_iff.1 hread
    split at hread
    · rename_i hlt
      exact ⟨key, u, v, given, w, hkey, hcolon, .other hother hskip, hlt, hread⟩
    · cases hread
  · rename_i i hfield
    split at hread
    · cases hread
    · rename_i hgiven
      obtain ⟨⟨⟨⟩, v⟩, hcolon, hread⟩ := bind_ok_iff.1 hread
      obtain ⟨⟨x, w⟩, hx, hread⟩ := bind_ok_iff.1 hread
      dsimp only at hread
      split at hread
      · rename_i hlt
        have hnone : given i = none := by simpa using hgiven
        exact ⟨key, u, v, given.set i x, w, hkey, hcolon, .field hfield hnone hx, hlt, hread⟩
      · cases hread

theorem MemberRead.skipFrames (h : ∀ i, TakesValue (record.codec i).read) {key : String}
    {given₁ : record.Given} (hread : MemberRead record given key s given₁ r) (frames : List Frame) :
    skipFrames frames .value s = skipFrames frames .comma r := by
  cases hread with
  | field _ _ hx => exact h _ _ _ _ hx frames
  | other _ hskip => exact skipFrames_frames frames hskip (by simp)

theorem skipFrames_of_readMembers (h : ∀ i, TakesValue (record.codec i).read)
    (hread : record.readMembers given first s = .ok (given', t)) (frames : List Frame) :
    ∃ u, t = '\x7d' :: u ∧
      skipFrames (.object :: frames) (stageOf first) s = skipFrames frames .comma u := by
  -- On the length of the text, since reading goes on behind the whole member.
  induction hn : s.length using Nat.strongRecOn generalizing s given first with
  | ind n ih =>
    cases hnext : nextKey first s with
    | error f =>
      rw [Record.readMembers, hnext] at hread
      cases hread
    | ok next =>
      obtain ⟨more, r⟩ := next
      cases more with
      | false =>
        rw [Record.readMembers, hnext] at hread
        cases hread
        obtain ⟨u, rfl, hspace⟩ := skipSpace_of_nextKey hnext
        exact ⟨u, rfl, skipFrames_closeObject frames (stageOf_ne_value first) hspace⟩
      | true =>
        obtain ⟨key, u, v, given₁, w, hkey, hcolon, hmember, hlt, hothers⟩ :=
          readMembers_ok hnext hread
        obtain ⟨u', rfl, hskip⟩ := ih w.length (hn ▸ hlt) hothers rfl
        refine ⟨u', rfl, ?_⟩
        rw [skipFrames_of_nextKey hnext hkey hcolon, hmember.skipFrames h]
        exact hskip

theorem skipFrames_of_readFields (h : ∀ i, TakesValue (record.codec i).read) {fields : List ι}
    (hread : record.readFields given first fields s = .ok (given', t))
    (hend : endArray t = ⟨r, none⟩) (frames : List Frame) :
    skipFrames (.array :: frames) (stageOf first) s = skipFrames frames .comma r := by
  induction fields generalizing given first s with
  | nil =>
    cases hread
    exact skipFrames_closeArray frames (stageOf_ne_value first) (endArray_ok hend)
  | cons i fields ih =>
    obtain ⟨⟨more, u⟩, hnext, hread⟩ := bind_ok_iff.1 hread
    cases more with
    | true =>
      obtain ⟨⟨x, v⟩, hx, hread⟩ := bind_ok_iff.1 hread
      rw [skipFrames_of_nextElement hnext, h i u x v hx]
      exact ih hread
    | false =>
      obtain ⟨v, rfl, hspace⟩ := skipSpace_of_nextElement hnext
      simp only [Bool.false_eq_true, if_false] at hread
      split at hread
      · cases hread
        have hclose : skipSpace (']' :: v) = ']' :: r := endArray_ok hend
        rw [skipSpace_cons rfl] at hclose
        exact skipFrames_closeArray frames (stageOf_ne_value first) (hspace.trans hclose)
      · cases hread

omit [DecidableEq ι] in
theorem finishWith_ok {content : Except Fault (record.Given × List Char)} {x : α}
    (h : record.finishWith content = .ok (x, r)) : ∃ given, content = .ok (given, r) := by
  obtain ⟨⟨given, u⟩, hcontent, h⟩ := bind_ok_iff.1 h
  dsimp only at h
  split at h
  · cases h
    exact ⟨given, hcontent⟩
  · cases h

theorem takesValue_record (h : ∀ i, TakesValue (record.codec i).read) :
    TakesValue record.toCodec.read := by
  intro s x r hread frames
  simp only [Record.toCodec, Record.read] at hread
  split at hread
  · rename_i t heq
    obtain ⟨u, hfinish, hend⟩ := closeWith_ok hread
    obtain ⟨given, hfields⟩ := finishWith_ok hfinish
    rw [skipFrames_openArray frames heq]
    exact skipFrames_of_readFields h hfields hend frames
  · rename_i t heq
    obtain ⟨u, hfinish, hend⟩ := closeWith_ok hread
    obtain ⟨given, hmembers⟩ := finishWith_ok hfinish
    obtain ⟨v, rfl, hskip⟩ := skipFrames_of_readMembers h hmembers frames
    cases hend
    rw [skipFrames_openObject frames heq]
    exact hskip
  · cases hread

end Records

end OneTape.Json
