import OneTape.Json.Number
import OneTape.Json.StringReader

namespace OneTape.Json

inductive Frame where
  | array
  | object
deriving DecidableEq

def skipKey (s : List Char) : Except Fault (List Char) :=
  match skipSpace s with
  | [] => .error (.next .endInObject [])
  | '"' :: s => do
    let s ← skipString s
    let (_, s) ← readColon s
    return s
  | s => .error (.next .keyNotString s)

def skipScalar (s : List Char) : Except Fault (List Char) :=
  match s with
  | [] => .error (.next .endInValue [])
  | 'n' :: s => (readWord ['u', 'l', 'l'] s).map (·.2)
  | 't' :: s => (readWord ['r', 'u', 'e'] s).map (·.2)
  | 'f' :: s => (readWord ['a', 'l', 's', 'e'] s).map (·.2)
  | '-' :: s => skipNumber s
  | '"' :: s => skipString s
  | c :: s => if c.isDigit then skipNumber (c :: s) else .error (.next .noValue (c :: s))

theorem skipSpace_length (s : List Char) : (skipSpace s).length ≤ s.length :=
  (List.dropWhile_suffix isSpace).length_le

theorem length_of_skipSpace {s t : List Char} (h : skipSpace s = t) : t.length ≤ s.length :=
  h ▸ skipSpace_length s

theorem readWord_length {word s r : List Char} (h : readWord word s = .ok ((), r)) :
    r.length ≤ s.length := by
  induction word generalizing s with
  | nil => cases h; exact Nat.le_refl _
  | cons c word ih =>
    cases s with
    | nil => cases h
    | cons d s =>
      unfold readWord at h
      split at h
      · have := ih h
        simp
        omega
      · cases h

theorem readColon_length {s r : List Char} (h : readColon s = .ok ((), r)) :
    r.length < s.length := by
  have hs := skipSpace_length s
  unfold readColon at h
  split at h
  · rename_i heq
    cases h
    rw [heq] at hs
    simp at hs
    omega
  · cases h
  · cases h

theorem skipKey_length {s r : List Char} (h : skipKey s = .ok r) : r.length < s.length := by
  have hs := skipSpace_length s
  unfold skipKey at h
  split at h
  · cases h
  · rename_i t heq
    rw [heq] at hs
    cases ht : skipString t with
    | error f => simp [ht, bind, Except.bind] at h
    | ok u =>
      cases hu : readColon u with
      | error f => simp [ht, hu, bind, Except.bind] at h
      | ok p =>
        have := skipString_length ht
        have := readColon_length hu
        simp only [ht, hu, bind, Except.bind, pure, Except.pure, Except.ok.injEq] at h
        subst h
        simp at hs
        omega
  · cases h

theorem skipScalar_length {s r : List Char} (h : skipScalar s = .ok r) : r.length < s.length := by
  unfold skipScalar at h
  have word {word s : List Char} (h : (readWord word s).map (·.2) = .ok r) :
      r.length ≤ s.length := by
    cases hw : readWord word s with
    | error f => simp [hw, Except.map] at h
    | ok p =>
      simp only [hw, Except.map, Except.ok.injEq] at h
      subst h
      exact readWord_length hw
  split at h
  · cases h
  · have := word h; simp; omega
  · have := word h; simp; omega
  · have := word h; simp; omega
  · have := skipNumber_length h; simp; omega
  · have := skipString_length h; simp; omega
  · split at h
    · have := skipNumber_length h; simpa using this
    · cases h

inductive Stage where
  | value
  | first
  | comma
deriving DecidableEq

/-- Passes over what is left of a value that stands in these frames, the innermost first. -/
def skipFrames (frames : List Frame) (stage : Stage) (s : List Char) : Except Fault (List Char) :=
  match stage, frames with
  | .value, frames =>
    match _h : skipSpace s with
    | '[' :: s => skipFrames (.array :: frames) .first s
    | '\x7b' :: s => skipFrames (.object :: frames) .first s
    | s =>
      match _h : skipScalar s with
      | .error f => .error f
      | .ok s => skipFrames frames .comma s
  | _, [] => .ok s
  | stage, .array :: frames =>
    match _h : skipSpace s with
    | [] => .error (.next .endInList [])
    | ']' :: s => skipFrames frames .comma s
    | c :: s =>
      if stage = .first then skipFrames (.array :: frames) .value (c :: s)
      else if c = ',' then skipFrames (.array :: frames) .value s
      else .error (.next .noCommaOrBracket (c :: s))
  | stage, .object :: frames =>
    match _h : skipSpace s with
    | [] => .error (.next .endInObject [])
    | '\x7d' :: s => skipFrames frames .comma s
    | c :: s =>
      if stage = .comma ∧ c ≠ ',' then .error (.next .noCommaOrBrace (c :: s))
      else
        match _h : skipKey (if stage = .first then c :: s else s) with
        | .error f => .error f
        | .ok s => skipFrames (.object :: frames) .value s
termination_by 2 * s.length + if stage = .first then 1 else 0
decreasing_by
  · have := length_of_skipSpace _h; grind
  · have := length_of_skipSpace _h; grind
  · have := length_of_skipSpace ‹_›; have := skipScalar_length _h; grind
  · have := length_of_skipSpace _h; grind
  · have := length_of_skipSpace _h; grind
  · have := length_of_skipSpace _h; grind
  · have := length_of_skipSpace _h; grind
  · have := length_of_skipSpace ‹_›; have := skipKey_length _h; grind

def skipValue (s : List Char) : Except Fault (List Char) := skipFrames [] .value s

end OneTape.Json
