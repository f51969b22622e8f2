import OneTape.Proofs.Statement.Forest

namespace OneTape.Statement

open Text

def Slice (text : List Char) (start stop : Nat) (s : List Char) : Prop :=
  ∃ front back, text = front ++ s ++ back ∧ byteLength front = start ∧
    byteLength (front ++ s) = stop

/-- The trees lie one behind the other between two bytes of the text, and what is below a root lies
between the bytes of the root. -/
inductive Laid (text : List Char) : Nat → Nat → Forest Pair → Prop where
  | empty {start stop : Nat} (h : start ≤ stop) : Laid text start stop .empty
  | node {start stop : Nat} {pair : Pair} {inner more : Forest Pair} (before : start ≤ pair.start)
      (slice : Slice text pair.start pair.stop pair.text.toList)
      (inside : Laid text pair.start pair.stop inner) (behind : Laid text pair.stop stop more) :
      Laid text start stop (.node pair inner more)

def IsSymbol (text : List Char) (pair : Pair) : Prop :=
  ∃ front back, text = front ++ pair.text.toList ++ back ∧ byteLength front = pair.start ∧
    IsName pair.text.toList ∧
    (back = [] ∨ ∃ c rest, back = c :: rest ∧ (c = ':' ∨ isBlank c = true))

variable {text s rest : List Char} {start start' stop last : Nat} {t u : Forest Pair} {pair : Pair}

theorem Laid.mono (h : Laid text start stop t) (hle : start' ≤ start) :
    Laid text start' stop t := by
  cases h with
  | empty h => exact .empty (hle.trans h)
  | node before slice inside behind => exact .node (hle.trans before) slice inside behind

theorem Laid.append (ht : Laid text start stop t) (hu : Laid text stop last u) :
    Laid text start last (t ++ u) := by
  induction ht with
  | empty h => exact hu.mono h
  | node before slice inside _ _ ih => exact .node before slice inside (ih hu)

theorem breaks_isTokenChar_iff {back : List Char} : Breaks isTokenChar back ↔
    back = [] ∨ ∃ c rest, back = c :: rest ∧ (c = ':' ∨ isBlank c = true) := by
  cases back with
  | nil => simp [breaks_nil]
  | cons c rest =>
    have hc : isTokenChar c = false ↔ c = ':' ∨ isBlank c = true := by
      rw [← Bool.not_eq_true, isTokenChar_iff]
      grind
    simp [breaks_cons, hc]

namespace Place

variable {place next last : Place}

def Reaches (place last : Place) : Prop :=
  ∃ s, place.rest = s ++ last.rest ∧ last.bytes = place.bytes + byteLength s

theorem reaches_refl (place : Place) : place.Reaches place := ⟨[], rfl, rfl⟩

theorem Reaches.trans (h : place.Reaches next) (h' : next.Reaches last) : place.Reaches last := by
  obtain ⟨s, hs, hbytes⟩ := h
  obtain ⟨s', hs', hbytes'⟩ := h'
  exact ⟨s ++ s', by rw [hs, hs', List.append_assoc],
    by rw [hbytes', hbytes, byteLength_append, Nat.add_assoc]⟩

theorem reaches_past (h : place.rest = s ++ rest) : place.Reaches (place.past s rest) :=
  ⟨s, h, rfl⟩

theorem reaches_skip (atomic : Bool) (place : Place) : place.Reaches (place.skip atomic) := by
  cases atomic with
  | true => exact place.reaches_refl
  | false => exact reaches_past List.takeWhile_append_dropWhile.symm

theorem Reaches.bytes_le (h : place.Reaches last) : place.bytes ≤ last.bytes := by
  obtain ⟨s, -, hbytes⟩ := h
  omega

theorem Reaches.upTo (h : place.Reaches last) :
    place.rest = place.upTo last ++ last.rest ∧
      place.bytes + byteLength (place.upTo last) = last.bytes := by
  obtain ⟨s, hs, hbytes⟩ := h
  have hupTo : place.upTo last = s := by simp [Place.upTo, hs]
  rw [hupTo]
  exact ⟨hs, hbytes.symm⟩

theorem Reaches.slice (hplace : Reaches ⟨0, text⟩ place) (h : place.Reaches last) :
    Slice text place.bytes last.bytes (place.upTo last) := by
  obtain ⟨front, htext, hbytes⟩ := hplace
  obtain ⟨hrest, hstop⟩ := h.upTo
  have hfront : byteLength front = place.bytes := by
    rw [hbytes, Nat.zero_add]
  refine ⟨front, last.rest, ?_, hfront, ?_⟩
  · rw [List.append_assoc, ← hrest, ← htext]
  · rw [byteLength_append, hfront, hstop]

end Place

/-- What is grown between two places of a text lies there, and its symbols are whole. -/
structure Grown (text : List Char) (place : Place) (t : Forest Pair) (last : Place) : Prop where
  reaches : place.Reaches last
  laid : Laid text place.bytes last.bytes t
  symbols : ∀ pair ∈ t.nodes, pair.part = .symbol → IsSymbol text pair

namespace Grown

variable {place next last : Place}

theorem of_reaches (h : place.Reaches last) : Grown text place .empty last :=
  ⟨h, .empty h.bytes_le, List.forall_mem_nil _⟩

theorem append (ht : Grown text place t next) (hu : Grown text next u last) :
    Grown text place (t ++ u) last := by
  refine ⟨ht.reaches.trans hu.reaches, ht.laid.append hu.laid, ?_⟩
  rw [Forest.nodes_append, List.forall_mem_append]
  exact ⟨ht.symbols, hu.symbols⟩

theorem node {part : Part} (hplace : Place.Reaches ⟨0, text⟩ place) (h : Grown text place t last)
    (hsymbol : part = .symbol →
      IsSymbol text (.spanning part place.bytes (place.upTo last))) :
    Grown text place (.node (.spanning part place.bytes (place.upTo last)) t .empty) last := by
  have hstop := h.reaches.upTo.2
  have hslice := hplace.slice h.reaches
  refine ⟨h.reaches, ?_, ?_⟩
  · refine .node le_rfl ?_ ?_ (.empty ?_)
    · simpa [Pair.spanning, hstop] using hslice
    · simpa [Pair.spanning, hstop] using h.laid
    · exact hstop.le
  · rw [Forest.nodes, List.forall_mem_cons, Forest.nodes, List.append_nil]
    exact ⟨hsymbol, h.symbols⟩

end Grown

namespace Peg

variable {e : Peg} {atomic : Bool} {place last : Place}

def SpellsSymbols (e : Peg) : Prop :=
  ∀ r ∈ e.rules, r.1 = .symbol → r.2 = (true, .plus tokenChar)

theorem isSymbol_of_grow (hplace : Place.Reaches ⟨0, text⟩ place)
    (h : (plus tokenChar).grow true place = some (t, last)) :
    IsSymbol text (.spanning .symbol place.bytes (place.upTo last)) := by
  have hparse := parse_plus parse_tokenChar place
  rw [parse_eq, h] at hparse
  split at hparse
  · cases hparse
  · rename_i hne
    simp only [Option.map_some, flat, Option.some.injEq, Prod.mk.injEq] at hparse
    obtain ⟨-, rfl⟩ := hparse
    obtain ⟨hrun, hrest, hbreaks⟩ :=
      takeWhile_dropWhile_iff (s := place.rest) (p := isTokenChar).1 ⟨rfl, rfl⟩
    obtain ⟨front, htext, hbytes⟩ := hplace
    rw [Place.upTo_past hrest]
    refine ⟨front, place.rest.dropWhile isTokenChar, ?_, ?_, ?_, breaks_isTokenChar_iff.1 hbreaks⟩
    · rw [Pair.spanning, String.toList_ofList, List.append_assoc, ← hrest, ← htext]
    · rw [Pair.spanning, hbytes, Nat.zero_add]
    · rw [Pair.spanning, String.toList_ofList]
      exact ⟨hne, hrun⟩

theorem grown (he : e.SpellsSymbols) (hplace : Place.Reaches ⟨0, text⟩ place)
    (h : e.grow atomic place = some (t, last)) : Grown text place t last := by
  refine grow_induct
    (R := fun _ place t last ↦ Place.Reaches ⟨0, text⟩ place → Grown text place t last)
    (fun _ place _ ↦ .of_reaches place.reaches_refl)
    (fun atomic place _ ↦ .of_reaches (place.reaches_skip atomic)) ?_ ?_ e ?_ h hplace
  · intro atomic place t next u last ht hu hplace
    have hgrown := ht hplace
    exact hgrown.append (hu (hplace.trans hgrown.reaches))
  · intro atomic place c rest hrest _
    exact .of_reaches (Place.reaches_past hrest)
  · rintro ⟨part, own, body⟩ hr atomic place inner last hbody hinner hplace
    cases atomic with
    | true => exact hinner hplace
    | false =>
      refine (hinner hplace).node hplace ?_
      rintro rfl
      have hsymbol := he _ hr rfl
      cases hsymbol
      exact isSymbol_of_grow hplace hbody

end Peg

end OneTape.Statement
