import OneTape.Proofs.Statement.Grammar

namespace OneTape.Statement

open Text

/-- Trees beside each other: the root of the first one, what is below it, and the other trees. -/
inductive Forest (α : Type) where
  | empty
  | node (root : α) (inner more : Forest α)
deriving DecidableEq, Repr

namespace Forest

variable {α β : Type}

def leaf (root : α) : Forest α := node root empty empty

def append : Forest α → Forest α → Forest α
  | empty, u => u
  | node root inner more, u => node root inner (more.append u)

instance : Append (Forest α) := ⟨append⟩

def map (f : α → β) : Forest α → Forest β
  | empty => empty
  | node root inner more => node (f root) (inner.map f) (more.map f)

def nodes : Forest α → List α
  | empty => []
  | node root inner more => root :: (inner.nodes ++ more.nodes)

def leaves : Forest α → List α
  | empty => []
  | node root empty more => root :: more.leaves
  | node _ inner more => inner.leaves ++ more.leaves

def trees : Forest α → List (α × Forest α)
  | empty => []
  | node root inner more => (root, inner) :: more.trees

variable {root : α} {inner more t u : Forest α} {f : α → β}

@[simp]
theorem empty_append : empty ++ t = t := rfl

@[simp]
theorem node_append : node root inner more ++ t = node root inner (more ++ t) := rfl

@[simp]
theorem append_empty (t : Forest α) : t ++ empty = t := by
  induction t with
  | empty => rfl
  | node root inner more _ ih => rw [node_append, ih]

@[simp]
theorem nodes_append (t u : Forest α) : (t ++ u).nodes = t.nodes ++ u.nodes := by
  induction t with
  | empty => rfl
  | node root inner more _ ih => simp [nodes, ih]

theorem map_append (t u : Forest α) : (t ++ u).map f = t.map f ++ u.map f := by
  induction t with
  | empty => rfl
  | node root inner more _ ih => simp [map, ih]

theorem nodes_map (f : α → β) (t : Forest α) : (t.map f).nodes = t.nodes.map f := by
  induction t with
  | empty => rfl
  | node root inner more ihInner ihMore => simp [map, nodes, ihInner, ihMore]

theorem eq_of_map_eq (hmap : t.map f = u.map f) (hnodes : t.nodes = u.nodes) : t = u := by
  induction t generalizing u with
  | empty =>
    cases u with
    | empty => rfl
    | node root inner more => cases hmap
  | node root inner more ihInner ihMore =>
    cases u with
    | empty => cases hmap
    | node root' inner' more' =>
      simp only [map, node.injEq] at hmap
      obtain ⟨-, hinner, hmore⟩ := hmap
      -- The outline says where the nodes of the inner forest end.
      have hlength : inner.nodes.length = inner'.nodes.length := by
        rw [← List.length_map f, ← nodes_map, hinner, nodes_map, List.length_map]
      simp only [nodes, List.cons.injEq] at hnodes
      obtain ⟨rfl, hnodes⟩ := hnodes
      obtain ⟨hinners, hmores⟩ := List.append_inj hnodes hlength
      rw [ihInner hinner hinners, ihMore hmore hmores]

end Forest

namespace Peg

abbrev Grower := Place → Option (Forest Pair × Place)

def regrown (grower : Grower) (place : Place) : Forest Pair × Place :=
  match grower place with
  | none => (.empty, place)
  | some (t, next) =>
    if next.rest.length < place.rest.length then
      let (more, last) := regrown grower next
      (t ++ more, last)
    else (t, next)
termination_by place.rest.length

/-- What is grown inside a rule, put below the pair of the rule. Inside an atomic rule there are no
pairs. -/
def enclose (part : Part) (atomic : Bool) (place last : Place) (inner : Forest Pair) :
    Forest Pair :=
  if atomic then inner else .node (.spanning part place.bytes (place.upTo last)) inner .empty

def grow : Peg → Bool → Grower
  | char p, _, place =>
    match place.rest with
    | c :: rest => if p c then some (.empty, place.past [c] rest) else none
    | [] => none
  | seq e f, atomic, place => do
    let (t, next) ← e.grow atomic place
    let (more, last) ← f.grow atomic (next.skip atomic)
    return (t ++ more, last)
  | alt e f, atomic, place => e.grow atomic place <|> f.grow atomic place
  | plus e, atomic, place => do
    let (t, next) ← e.grow atomic place
    let (more, last) := regrown (fun place ↦ e.grow atomic (place.skip atomic)) next
    return (t ++ more, last)
  | neg e, atomic, place => if (e.grow atomic place).isSome then none else some (.empty, place)
  | start, _, place => if place.bytes = 0 then some (.empty, place) else none
  | stop, _, place => if place.rest = [] then some (.empty, place) else none
  | rule part own e, atomic, place => do
    let (inner, last) ← e.grow (atomic || own) place
    return (enclose part atomic place last inner, last)

variable {e f : Peg} {atomic own : Bool} {place next last : Place} {t u : Forest Pair}
  {grower : Grower} {part : Part} {text : List Char}

def flat (grown : Forest Pair × Place) : List Pair × Place := (grown.1.nodes, grown.2)

theorem flat_regrown {parser : Parser} (h : ∀ place, parser place = (grower place).map flat)
    (place : Place) : repeated parser place = flat (regrown grower place) := by
  induction place using regrown.induct grower with
  | case1 place hnone => rw [repeated, regrown, h, hnone]; rfl
  | case2 place t next hgrow hlt more last hmore ih =>
    rw [repeated, regrown, h, hgrow]
    simp only [Option.map_some, flat, if_pos hlt, ih, Forest.nodes_append]
  | case3 place t next hgrow hlt =>
    rw [repeated, regrown, h, hgrow]
    simp only [Option.map_some, flat, if_neg hlt]

theorem parse_eq (e : Peg) (atomic : Bool) (place : Place) :
    e.parse atomic place = (e.grow atomic place).map flat := by
  induction e generalizing atomic place with
  | char p =>
    obtain ⟨bytes, s⟩ := place
    cases s with
    | nil => rfl
    | cons c s => by_cases hc : p c <;> simp [parse, grow, hc, flat, Forest.nodes]
  | seq e f ihe ihf =>
    rw [parse, grow, ihe]
    cases e.grow atomic place with
    | none => rfl
    | some grown =>
      simp only [Option.map_some, Option.bind_eq_bind, Option.bind_some, flat, ihf]
      cases f.grow atomic (grown.2.skip atomic) <;> simp [flat]
  | alt e f ihe ihf =>
    rw [parse, grow, ihe, ihf]
    cases e.grow atomic place <;> rfl
  | plus e ih =>
    rw [parse, grow, ih]
    cases e.grow atomic place with
    | none => rfl
    | some grown =>
      -- Further turns are compared by an induction on the text that they leave, not on `e`.
      have hmore := flat_regrown (fun place ↦ ih atomic (place.skip atomic)) grown.2
      simp [flat, hmore]
  | neg e ih =>
    rw [parse, grow, ih, Option.isSome_map]
    split <;> rfl
  | start => rw [parse, grow]; split <;> rfl
  | stop => rw [parse, grow]; split <;> rfl
  | rule part own e ih =>
    rw [parse, grow, ih]
    cases e.grow (atomic || own) place with
    | none => rfl
    | some grown => cases atomic <;> simp [flat, enclose, Forest.nodes]

theorem grow_seq_iff : (seq e f).grow atomic place = some (t, last) ↔
    ∃ front next back, e.grow atomic place = some (front, next) ∧
      f.grow atomic (next.skip atomic) = some (back, last) ∧ t = front ++ back := by
  simp only [grow, Option.bind_eq_bind, Option.bind_eq_some_iff, Prod.exists, Option.pure_def,
    Option.some.injEq, Prod.mk.injEq]
  constructor
  · rintro ⟨front, next, he, back, _, hf, rfl, rfl⟩
    exact ⟨front, next, back, he, hf, rfl⟩
  · rintro ⟨front, next, back, he, hf, rfl⟩
    exact ⟨front, next, he, back, last, hf, rfl, rfl⟩

theorem grow_rule_iff : (rule part own e).grow atomic place = some (t, last) ↔
    ∃ inner, e.grow (atomic || own) place = some (inner, last) ∧
      t = enclose part atomic place last inner := by
  simp only [grow, Option.bind_eq_bind, Option.bind_eq_some_iff, Prod.exists, Option.pure_def,
    Option.some.injEq, Prod.mk.injEq]
  constructor
  · rintro ⟨inner, _, he, rfl, rfl⟩
    exact ⟨inner, he, rfl⟩
  · rintro ⟨inner, he, rfl⟩
    exact ⟨inner, last, he, rfl, rfl⟩

def rules : Peg → List (Part × Bool × Peg)
  | char _ | neg _ | start | stop => []
  | seq e f | alt e f => e.rules ++ f.rules
  | plus e => e.rules
  | rule part own e => (part, own, e) :: e.rules

section Induction

variable {R : Bool → Place → Forest Pair → Place → Prop}
  (hempty : ∀ atomic place, R atomic place .empty place)
  (hskip : ∀ atomic place, R atomic place .empty (place.skip atomic))
  (happend : ∀ atomic place t next u last, R atomic place t next → R atomic next u last →
    R atomic place (t ++ u) last)

include hempty happend in
theorem regrown_induct
    (hturn : ∀ place t last, grower place = some (t, last) → R atomic place t last)
    (place : Place) : R atomic place (regrown grower place).1 (regrown grower place).2 := by
  induction place using regrown.induct grower with
  | case1 place hnone =>
    rw [regrown, hnone]
    exact hempty atomic place
  | case2 place t next hgrow hlt more last hmore ih =>
    rw [regrown, hgrow]
    simp only [if_pos hlt]
    exact happend _ _ _ _ _ _ (hturn place t next hgrow) ih
  | case3 place t next hgrow hlt =>
    rw [regrown, hgrow]
    simp only [if_neg hlt]
    exact hturn place t next hgrow

include hempty hskip happend in
/-- What holds of white space and of a character, of things put together, and of each rule if it
holds of the rule's body, holds of all that is grown. -/
theorem grow_induct
    (hchar : ∀ atomic place c rest, place.rest = c :: rest →
      R atomic place .empty (place.past [c] rest))
    (e : Peg)
    (hrule : ∀ r ∈ e.rules, ∀ atomic place inner last,
      r.2.2.grow (atomic || r.2.1) place = some (inner, last) →
      R (atomic || r.2.1) place inner last →
      R atomic place (enclose r.1 atomic place last inner) last)
    (h : e.grow atomic place = some (t, last)) : R atomic place t last := by
  induction e generalizing atomic place t last with
  | char p =>
    rw [grow] at h
    split at h
    · rename_i c rest hrest
      split at h <;> cases h
      exact hchar atomic place c rest hrest
    · cases h
  | seq e f ihe ihf =>
    obtain ⟨front, next, back, he, hf, rfl⟩ := grow_seq_iff.1 h
    have hfront := ihe (fun r hm ↦ hrule r (List.mem_append_left _ hm)) he
    have hback := ihf (fun r hm ↦ hrule r (List.mem_append_right _ hm)) hf
    -- The white space between the two leaves nothing, like an expression of its own.
    exact happend _ _ _ _ _ _ hfront (happend _ _ .empty _ _ _ (hskip atomic next) hback)
  | alt e f ihe ihf =>
    rw [grow] at h
    cases he : e.grow atomic place with
    | none =>
      rw [he] at h
      exact ihf (fun r hm ↦ hrule r (List.mem_append_right _ hm)) h
    | some grown =>
      rw [he] at h
      cases h
      exact ihe (fun r hm ↦ hrule r (List.mem_append_left _ hm)) he
  | plus e ih =>
    simp only [grow, Option.bind_eq_bind, Option.bind_eq_some_iff, Prod.exists, Option.pure_def,
      Option.some.injEq, Prod.mk.injEq] at h
    obtain ⟨front, next, he, rfl, rfl⟩ := h
    refine happend _ _ _ _ _ _ (ih hrule he) (regrown_induct hempty happend ?_ next)
    intro place t last hturn
    exact happend _ _ .empty _ _ _ (hskip atomic place) (ih hrule hturn)
  | neg | start | stop =>
    rw [grow] at h
    split at h <;> cases h
    exact hempty atomic place
  | rule part own e ih =>
    obtain ⟨inner, he, rfl⟩ := grow_rule_iff.1 h
    have hinner := ih (fun r hm ↦ hrule r (List.mem_cons_of_mem _ hm)) he
    exact hrule (part, own, e) List.mem_cons_self atomic place inner last he hinner

end Induction

theorem grow_of_rules_eq_nil (he : e.rules = []) (h : e.grow atomic place = some (t, last)) :
    t = .empty := by
  refine grow_induct (R := fun _ _ t _ ↦ t = .empty) (fun _ _ ↦ rfl) (fun _ _ ↦ rfl) ?_
    (fun _ _ _ _ _ ↦ rfl) e ?_ h
  · intro atomic place t next u last ht hu
    rw [ht, hu]
    rfl
  · intro r hr
    rw [he] at hr
    cases hr

theorem grow_atomic (h : e.grow true place = some (t, last)) : t = .empty := by
  refine grow_induct (R := fun atomic _ t _ ↦ atomic = true → t = .empty) (fun _ _ _ ↦ rfl)
    (fun _ _ _ ↦ rfl) ?_ (fun _ _ _ _ _ _ ↦ rfl) e ?_ h rfl
  · intro atomic place t next u last ht hu hatomic
    rw [ht hatomic, hu hatomic]
    rfl
  · intro r _ atomic place inner last _ hinner hatomic
    rw [enclose, if_pos hatomic]
    exact hinner (by rw [hatomic, Bool.true_or])

end Peg

end OneTape.Statement
