import OneTape.Json.Reader

namespace OneTape.Json

def hexValue? (c : Char) : Option Nat :=
  if c.isDigit then some (c.toNat - '0'.toNat)
  else if 'a' ≤ c ∧ c ≤ 'f' then some (c.toNat - 'a'.toNat + 10)
  else if 'A' ≤ c ∧ c ≤ 'F' then some (c.toNat - 'A'.toNat + 10)
  else none

/-- Reads the four digits of a UTF-16 unit. Four bytes are taken for them, whatever they are. -/
def readUnit : Reader Nat := fun s ↦
  if Text.byteLength (s.take 4) < 4 then .error (.here .endInString [])
  else
    match (s.take 4).mapM hexValue? with
    | some [a, b, c, d] => .ok (((a * 16 + b) * 16 + c) * 16 + d, s.drop 4)
    | _ => .error ⟨.badEscape, s, 4, true⟩

def isHighUnit (n : Nat) : Bool := 0xD800 ≤ n && n ≤ 0xDBFF

def isLowUnit (n : Nat) : Bool := 0xDC00 ≤ n && n ≤ 0xDFFF

def pairedChar (high low : Nat) : Char :=
  Char.ofNat (0x10000 + (high - 0xD800) * 0x400 + (low - 0xDC00))

def readLowUnit (high : Nat) : Reader Char := fun s ↦
  match s with
  | '\\' :: 'u' :: s => do
    let (low, s) ← readUnit s
    if isLowUnit low then return (pairedChar high low, s)
    else throw (.here .misplacedSurrogate s)
  | [] | ['\\'] => .error (.here .endInString [])
  | '\\' :: s => .error (.next .unpairedSurrogate s)
  | s => .error (.next .unpairedSurrogate s)

def shortEscape? : Char → Option Char
  | '"' => some '"'
  | '\\' => some '\\'
  | '/' => some '/'
  | 'b' => some '\x08'
  | 'f' => some '\x0c'
  | 'n' => some '\n'
  | 'r' => some '\r'
  | 't' => some '\t'
  | _ => none

def readEscape : Reader Char := fun s ↦
  match s with
  | [] => .error (.here .endInString [])
  | 'u' :: s => do
    let (n, s) ← readUnit s
    if isLowUnit n then throw (.here .misplacedSurrogate s)
    else if isHighUnit n then readLowUnit n s
    else return (Char.ofNat n, s)
  | c :: s =>
    match shortEscape? c with
    | some c => .ok (c, s)
    | none => .error (.next .badEscape (c :: s))

def isControl (c : Char) : Bool := c.toNat < 0x20

theorem readUnit_length {s r : List Char} {n : Nat} (h : readUnit s = .ok (n, r)) :
    r.length ≤ s.length := by
  unfold readUnit at h
  split at h
  · cases h
  · split at h
    · injection h with h
      injection h with _ h
      subst h
      simp
    · cases h

theorem readLowUnit_length {high : Nat} {s r : List Char} {c : Char}
    (h : readLowUnit high s = .ok (c, r)) : r.length ≤ s.length := by
  unfold readLowUnit at h
  split at h
  · rename_i s
    cases hu : readUnit s with
    | error e => simp [hu, bind, Except.bind] at h
    | ok p =>
      obtain ⟨low, t⟩ := p
      have := readUnit_length hu
      simp only [hu, bind, Except.bind] at h
      split at h
      · injection h with h
        injection h with _ h
        subst h
        simp
        omega
      · cases h
  all_goals cases h

theorem readEscape_length {s r : List Char} {c : Char} (h : readEscape s = .ok (c, r)) :
    r.length < s.length := by
  unfold readEscape at h
  split at h
  · cases h
  · rename_i s
    cases hu : readUnit s with
    | error e => simp [hu, bind, Except.bind] at h
    | ok p =>
      obtain ⟨n, t⟩ := p
      have := readUnit_length hu
      simp only [hu, bind, Except.bind] at h
      split at h
      · cases h
      · split at h
        · have := readLowUnit_length h
          simp
          omega
        · injection h with h
          injection h with _ h
          subst h
          simp
          omega
  · split at h
    · injection h with h
      injection h with _ h
      subst h
      simp
    · cases h

def readCharacters : Reader (List Char)
  | [] => .error (.here .endInString [])
  | '"' :: s => .ok ([], s)
  | '\\' :: s =>
    match _h : readEscape s with
    | .error f => .error f
    | .ok (c, r) => (readCharacters r).map fun (cs, r) ↦ (c :: cs, r)
  | c :: s =>
    if isControl c then .error (.here .controlCharacter s)
    else (readCharacters s).map fun (cs, r) ↦ (c :: cs, r)
termination_by s => s.length
decreasing_by
  · have := readEscape_length _h
    simp
    omega
  · simp

def readStringRest : Reader String := fun s ↦
  (readCharacters s).map fun (cs, s) ↦ (String.ofList cs, s)

/-- Passes over a string that nobody wants. Only the form of its escapes matters. -/
def skipString : List Char → Except Fault (List Char)
  | [] => .error (.here .endInString [])
  | '"' :: s => .ok s
  | ['\\'] => .error (.here .endInString [])
  | '\\' :: 'u' :: s =>
    match _h : readUnit s with
    | .error f => .error f
    | .ok (_, r) => skipString r
  | '\\' :: c :: s =>
    if (shortEscape? c).isSome then skipString s else .error (.next .badEscape (c :: s))
  | c :: s => if isControl c then .error (.here .controlCharacter (c :: s)) else skipString s
termination_by s => s.length
decreasing_by
  · have := readUnit_length _h
    simp
    omega
  all_goals
    simp only [List.length_cons]
    omega

theorem skipString_length {s r : List Char} (h : skipString s = .ok r) : r.length < s.length := by
  fun_induction skipString s with
  | case1 | case3 | case4 | case7 | case8 => cases h
  | case2 s => cases h; simp
  | case5 s n t hu ih =>
    have := readUnit_length hu
    have := ih h
    simp
    omega
  | case6 c s _ _ ih =>
    have := ih h
    simp
    omega
  | case9 c s _ _ _ _ _ ih =>
    have := ih h
    simp
    omega

end OneTape.Json
