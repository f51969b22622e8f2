import OneTape.Proofs.Statement.Reader
import OneTape.Statement.Pair

namespace OneTape.Statement

open Text

/-- How many bytes stand in front of a place, and the characters that follow it. -/
structure Place where
  bytes : Nat
  rest : List Char

namespace Place

def past (place : Place) (s rest : List Char) : Place := ⟨place.bytes + byteLength s, rest⟩

def upTo (place last : Place) : List Char :=
  place.rest.take (place.rest.length - last.rest.length)

def skip (atomic : Bool) (place : Place) : Place :=
  if atomic then place
  else place.past (place.rest.takeWhile isBlank) (place.rest.dropWhile isBlank)

end Place

/-- Parsing expressions. White space is skipped between the parts of a sequence and the turns of a
repetition outside atomic rules, and a rule that matches leaves a pair. -/
inductive Peg where
  | char (p : Char → Bool)
  | seq (e f : Peg)
  | alt (e f : Peg)
  | plus (e : Peg)
  | neg (e : Peg)
  | start
  | stop
  | rule (part : Part) (atomic : Bool) (e : Peg)

namespace Peg

abbrev Parser := Place → Option (List Pair × Place)

def repeated (parser : Parser) (place : Place) : List Pair × Place :=
  match parser place with
  | none => ([], place)
  | some (pairs, next) =>
    if next.rest.length < place.rest.length then
      let (more, last) := repeated parser next
      (pairs ++ more, last)
    else (pairs, next)
termination_by place.rest.length

/-- What an expression matches at a place: the pairs it leaves and where it ends. Nothing is left
by a rule inside an atomic one. -/
def parse : Peg → Bool → Parser
  | char p, _, place =>
    match place.rest with
    | c :: rest => if p c then some ([], place.past [c] rest) else none
    | [] => none
  | seq e f, atomic, place => do
    let (pairs, next) ← e.parse atomic place
    let (more, last) ← f.parse atomic (next.skip atomic)
    return (pairs ++ more, last)
  | alt e f, atomic, place => e.parse atomic place <|> f.parse atomic place
  | plus e, atomic, place => do
    let (pairs, next) ← e.parse atomic place
    let (more, last) := repeated (fun place ↦ e.parse atomic (place.skip atomic)) next
    return (pairs ++ more, last)
  | neg e, atomic, place => if (e.parse atomic place).isSome then none else some ([], place)
  | start, _, place => if place.bytes = 0 then some ([], place) else none
  | stop, _, place => if place.rest = [] then some ([], place) else none
  | rule part own e, atomic, place => do
    let (pairs, last) ← e.parse (atomic || own) place
    return (if atomic then pairs else .spanning part place.bytes (place.upTo last) :: pairs, last)

end Peg

section Places

variable {place : Place} {s t rest : List Char}

@[simp]
theorem byteLength_nil : byteLength [] = 0 := rfl

@[simp]
theorem byteLength_cons {c : Char} : byteLength (c :: s) = c.utf8Size + byteLength s := rfl

theorem byteLength_append : byteLength (s ++ t) = byteLength s + byteLength t := by
  induction s with
  | nil => simp
  | cons c s ih => simp [ih, Nat.add_assoc]

theorem Place.upTo_past (h : place.rest = s ++ rest) : place.upTo (place.past s rest) = s := by
  simp [Place.upTo, Place.past, h]

theorem Place.upTo_end (last : Place) (h : last.rest = []) : place.upTo last = place.rest := by
  simp [Place.upTo, h]

end Places

namespace Peg

variable {p : Char → Bool} {e f : Peg} {atomic : Bool} {place next : Place} {pairs : List Pair}
  {part : Part} {own : Bool}

theorem parse_seq (h : e.parse atomic place = some (pairs, next)) :
    (seq e f).parse atomic place =
      (f.parse atomic (next.skip atomic)).map fun (more, last) ↦ (pairs ++ more, last) := by
  simp only [parse, h, Option.bind_eq_bind, Option.bind_some]
  cases f.parse atomic (next.skip atomic) <;> rfl

theorem parse_seq_none (h : e.parse atomic place = none) : (seq e f).parse atomic place = none := by
  simp [parse, h]

theorem parse_rule (h : e.parse own place = some (pairs, next)) :
    (rule part own e).parse false place =
      some (.spanning part place.bytes (place.upTo next) :: pairs, next) := by
  simp [parse, h]

theorem parse_rule_none (h : e.parse own place = none) :
    (rule part own e).parse false place = none := by
  simp [parse, h]

theorem repeated_char (h : ∀ place, e.parse true place = (char p).parse true place) (bytes : Nat)
    (s : List Char) :
    repeated (fun place ↦ e.parse true (place.skip true)) ⟨bytes, s⟩ =
      ([], Place.past ⟨bytes, s⟩ (s.takeWhile p) (s.dropWhile p)) := by
  induction s generalizing bytes with
  | nil => simp [repeated, h, parse, Place.skip, Place.past, byteLength]
  | cons c s ih =>
    rw [repeated]
    by_cases hc : p c
    · simp only [h, parse, Place.skip, if_true, hc, Place.past, List.length_cons,
        Nat.lt_succ_self] at ih ⊢
      rw [ih]
      simp [hc, byteLength, Nat.add_assoc]
    · simp [h, parse, Place.skip, Place.past, hc, byteLength]

theorem parse_plus (h : ∀ place, e.parse true place = (char p).parse true place) (place : Place) :
    (plus e).parse true place =
      if place.rest.takeWhile p = [] then none
      else some ([], place.past (place.rest.takeWhile p) (place.rest.dropWhile p)) := by
  obtain ⟨bytes, s⟩ := place
  cases s with
  | nil => simp [parse, h]
  | cons c s =>
    by_cases hc : p c
    · have hchar : e.parse true ⟨bytes, c :: s⟩ = some ([], Place.past ⟨bytes, c :: s⟩ [c] s) := by
        rw [h]
        simp [parse, hc]
      simp only [parse, hchar, Option.bind_eq_bind, Option.bind_some, Place.past]
      rw [repeated_char h]
      simp [hc, Place.past, byteLength, Nat.add_assoc]
    · simp [parse, h, hc]

end Peg

end OneTape.Statement
