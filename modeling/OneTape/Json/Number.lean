import OneTape.Json.Reader
import OneTape.Text.Basic

namespace OneTape.Json

open Text

structure Numeral where
  whole : List Char
  fraction : List Char
  exponent? : Option (Bool × List Char)

/-- Reads at least one digit. A text that ends is at fault for `atEnd`. -/
def readDigits (atEnd : Reason) : Reader (List Char) := fun s ↦
  match s with
  | [] => .error (.here atEnd [])
  | c :: r =>
    if c.isDigit then .ok (s.takeWhile Char.isDigit, s.dropWhile Char.isDigit)
    else .error (.next .badNumber (c :: r))

def readWhole (atEnd : Reason) : Reader (List Char) := fun s ↦
  match s with
  | '0' :: c :: s => if c.isDigit then .error (.next .badNumber (c :: s)) else .ok (['0'], c :: s)
  | s => readDigits atEnd s

def readFraction (atEnd : Reason) : Reader (List Char) := fun s ↦
  match s with
  | '.' :: s => readDigits atEnd s
  | s => .ok ([], s)

def readSign : List Char → Bool × List Char
  | '+' :: s => (false, s)
  | '-' :: s => (true, s)
  | s => (false, s)

def readExponent (atEnd : Reason) : Reader (Option (Bool × List Char)) := fun s ↦
  match s with
  | c :: r =>
    if c = 'e' ∨ c = 'E' then
      (readDigits atEnd (readSign r).2).map fun (digits, s) ↦ (some ((readSign r).1, digits), s)
    else .ok (none, s)
  | [] => .ok (none, [])

def readNumeral (atEnd : Reason) : Reader Numeral := fun s ↦ do
  let (whole, s) ← readWhole atEnd s
  let (fraction, s) ← readFraction atEnd s
  let (exponent?, s) ← readExponent atEnd s
  return (⟨whole, fraction, exponent?⟩, s)

def skipNumber (s : List Char) : Except Fault (List Char) := (readNumeral .badNumber s).map (·.2)

inductive Number where
  | natural (n : Nat)
  | negative (n : Nat)
  | double (x : Float)

def gather (n : Nat) : List Char → Nat × List Char
  | [] => (n, [])
  | d :: digits =>
    if 10 * n + digitValue d ≤ maxWord then gather (10 * n + digitValue d) digits
    else (n, d :: digits)

def tenTo (n : Nat) : Float := Float.ofScientific 1 false n

/-- The double `x * 10 ^ exponent`, by at most one rounded product or by rounded quotients; none if
it would be infinite. -/
def scale? (x : Float) (exponent : Int) : Option Float :=
  if 308 < exponent then if x == 0 then some x else none
  else if 0 ≤ exponent then
    let x := x * tenTo exponent.toNat
    if x.isInf then none else some x
  else if -308 ≤ exponent then some (x / tenTo (-exponent).toNat)
  else if x == 0 then some x
  else scale? (x / tenTo 308) (exponent + 308)
termination_by (-exponent).toNat

def maxExponent : Nat := 1 <<< 31 - 1

def excessDigits? (n : Nat) : List Char → Option (List Char)
  | [] => none
  | d :: digits =>
    if 10 * n + digitValue d ≤ maxExponent then excessDigits? (10 * n + digitValue d) digits
    else some digits

/-- The digits of a double that fit in a word, and the power of ten that they count. Of the digits
that do not fit, those of the whole part raise the power. -/
def Numeral.significand (x : Numeral) : Nat × Int :=
  let (n, excess) := gather 0 x.whole
  let (n, left) := gather n x.fraction
  (n, (excess.length : Int) - (x.fraction.length - left.length : Nat))

def Numeral.double (x : Numeral) (s : List Char) : Except Fault Float :=
  let (n, power) := x.significand
  let scaled (power : Int) : Except Fault Float :=
    match scale? (UInt64.ofNat n).toFloat power with
    | some y => .ok y
    | none => .error (.here .numberTooLarge s)
  match x.exponent? with
  | none => scaled power
  | some (negative, digits) =>
    match excessDigits? 0 digits with
    | some excess =>
      if n = 0 ∨ negative then .ok 0 else .error (.here .numberTooLarge (excess ++ s))
    | none =>
      scaled (if negative then power - decimalValue digits else power + decimalValue digits)

def Numeral.number (x : Numeral) (negative : Bool) (s : List Char) : Except Fault Number :=
  let n := decimalValue x.whole
  let isWhole := x.fraction.isEmpty && x.exponent?.isNone
  if isWhole && !negative && n ≤ maxWord then .ok (.natural n)
  else if isWhole && negative && 0 < n && n ≤ 1 <<< 63 then .ok (.negative n)
  else (x.double s).map fun y ↦ .double (if negative then -y else y)

def readNumber (negative : Bool) : Reader Number := fun s ↦ do
  let (x, s) ← readNumeral .endInValue s
  let number ← x.number negative s
  return (number, s)

theorem readDigits_length {atEnd : Reason} {s r ds : List Char}
    (h : readDigits atEnd s = .ok (ds, r)) : r.length < s.length := by
  unfold readDigits at h
  split at h
  · cases h
  · split at h
    · rename_i c t hc
      simp only [List.dropWhile_cons, hc, if_true, Except.ok.injEq, Prod.mk.injEq] at h
      rw [← h.2]
      have := (List.dropWhile_suffix Char.isDigit (l := t)).length_le
      simp
      omega
    · cases h

theorem readWhole_length {atEnd : Reason} {s r ds : List Char}
    (h : readWhole atEnd s = .ok (ds, r)) : r.length < s.length := by
  unfold readWhole at h
  split at h
  · split at h
    · cases h
    · cases h; simp
  · exact readDigits_length h

theorem readFraction_length {atEnd : Reason} {s r ds : List Char}
    (h : readFraction atEnd s = .ok (ds, r)) : r.length ≤ s.length := by
  unfold readFraction at h
  split at h
  · have := readDigits_length h
    simp
    omega
  · cases h; simp

theorem readSign_length (s : List Char) : (readSign s).2.length ≤ s.length := by
  unfold readSign
  split <;> simp

theorem readExponent_length {atEnd : Reason} {s r : List Char} {e : Option (Bool × List Char)}
    (h : readExponent atEnd s = .ok (e, r)) : r.length ≤ s.length := by
  unfold readExponent at h
  split at h
  · rename_i c t
    split at h
    · cases hd : readDigits atEnd (readSign t).2 with
      | error f => simp [hd, Except.map] at h
      | ok p =>
        have := readDigits_length hd
        have := readSign_length t
        simp only [hd, Except.map, Except.ok.injEq, Prod.mk.injEq] at h
        rw [← h.2]
        simp
        omega
    · cases h; simp
  · cases h; simp

theorem readNumeral_length {atEnd : Reason} {s r : List Char} {x : Numeral}
    (h : readNumeral atEnd s = .ok (x, r)) : r.length < s.length := by
  unfold readNumeral at h
  cases hw : readWhole atEnd s with
  | error f => simp [hw, bind, Except.bind] at h
  | ok p =>
    cases hf : readFraction atEnd p.2 with
    | error f => simp [hw, hf, bind, Except.bind] at h
    | ok q =>
      cases he : readExponent atEnd q.2 with
      | error f => simp [hw, hf, he, bind, Except.bind] at h
      | ok t =>
        have := readWhole_length hw
        have := readFraction_length hf
        have := readExponent_length he
        simp only [hw, hf, he, bind, Except.bind, pure, Except.pure, Except.ok.injEq,
          Prod.mk.injEq] at h
        rw [← h.2]
        omega

theorem skipNumber_length {s r : List Char} (h : skipNumber s = .ok r) : r.length < s.length := by
  unfold skipNumber at h
  cases hn : readNumeral .badNumber s with
  | error f => simp [hn, Except.map] at h
  | ok p =>
    have := readNumeral_length hn
    simp only [hn, Except.map, Except.ok.injEq] at h
    rw [← h]
    exact this

end OneTape.Json
